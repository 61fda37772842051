import Reshape.Proofs.Evaluate.Output
import Reshape.Proofs.Evaluate.Selection
import Reshape.Proofs.Value.Output
/-! Projecting again what was projected. What a plain projection of objects gave is given back, field
by field and item by item: what was read is in its place, what was dropped is missing, dates are
dates, and the lists hold nothing but records. The scopes of the second run need not be those of the
first. -/
namespace Reshape
variable {F : Type}

namespace Evaluate
open Fallible

structure Stable (engine : Engine F) (answers : Answers F) (id : Nat) (p : Projection F)
    (depth : Nat) (v : Value) : Prop where
  output : v.Output
  same : ∀ inv : Invocation F, inv.engine = id → inv.projection = p → inv.depth = depth →
    (evaluate (.single engine) inv v).eval answers = .ok (some v)

def StableBelow (engine : Engine F) (answers : Answers F) (id depth : Nat) (below : Select F) : Prop :=
  ∀ {p : Projection F} {d v : Value}, p.Objects → p.Selective → d.Bare → below p d = .ok (some v) →
    Stable engine answers id p (depth + 1) v

section Select
variable {below : Select F} {spec : Spec F} {shown found : Option Value}

theorem selectedTwice (plain : spec.Plain) (flat : spec.isProjection = false)
    (selected : Select.spec below shown spec = .ok found) :
    Select.spec below found spec = .ok found := by
  have passed : (.ok (dropNull shown) : Except Error _) = .ok found →
      (.ok (dropNull found) : Except Error _) = .ok found := by
    intro same
    cases same
    rw [dropNullAgain]
  cases plain with
  | typed tag =>
    cases tag with
    | date =>
      cases selected
      simp only [Select.spec]
      cases shown.bind Value.toDate? <;> rfl
    | _ => exact passed selected
  | passthrough => exact passed selected
  | literal v => exact selected
  | nested _ => cases flat

theorem selectedFree (plain : spec.Plain) (flat : spec.isProjection = false)
    (literal : ∀ v, spec = .literal v → v.ReferenceFree) (bare : ∀ v, shown = some v → v.Bare)
    (selected : Select.spec below shown spec = .ok found) {v : Value} (there : found = some v) :
    v.ReferenceFree := by
  have passed : (.ok (dropNull shown) : Except Error _) = .ok found → v.ReferenceFree := by
    intro same
    cases same
    exact (bare v (dropNullSome there)).referenceFree
  cases plain with
  | typed tag =>
    cases tag with
    | date =>
      cases selected
      obtain ⟨t, _, rfl⟩ := Option.map_eq_some_iff.mp there
      exact fun s inside => nomatch inside
    | _ => exact passed selected
  | passthrough => exact passed selected
  | literal w =>
    cases selected
    split at there
    · cases there
      exact literal _ rfl
    · cases there
  | nested _ => cases flat

end Select

section Level
variable {engine : Engine F} {answers : Answers F} {inv : Invocation F} {base c : Context F}
  {below : Select F} (stable : StableBelow engine answers inv.engine inv.depth below)
include stable

theorem nestedAgain {p : Projection F} (objects : p.Objects) (selective : p.Selective)
    {shown found : Option Value} (bare : ∀ v, shown = some v → v.Bare)
    (selected : Select.spec below shown (.nested p) = .ok found) (current : c.current? = found)
    (deep : c.depth = inv.depth) :
    (field (evaluate (.single engine)) [] inv c (.nested p)).eval answers = .ok found := by
  cases found with
  | none =>
    simp only [field, rawValue, current]
    rfl
  | some v =>
    have again : Stable engine answers inv.engine p (inv.depth + 1) v := by
      cases shown with
      | none => cases selected
      | some d => exact stable objects selective (bare d rfl) selected
    have below := again.same (inv.nested p c) rfl rfl (congrArg (· + 1) deep)
    simp only [field, rawValue, current, again.output.isTruthy, if_true]
    rw [Run.evalThen, below, okThen, dropNullOutput again.output]
    simp only [Spec.isProjection, Bool.or_true, if_true]
    rfl

theorem fieldAgain {spec : Spec F} (plain : spec.Plain)
    (literal : ∀ v, spec = .literal v → v.ReferenceFree)
    (nested : ∀ p, spec = .nested p → p.Objects ∧ p.Selective)
    {shown found : Option Value} (bare : ∀ v, shown = some v → v.Bare)
    (selected : Select.spec below shown spec = .ok found) (current : c.current? = found)
    (deep : c.depth = inv.depth) :
    (field (evaluate (.single engine)) [] inv c spec).eval answers = .ok found := by
  cases flat : spec.isProjection with
  | false =>
    have free : ∀ v, c.current? = some v → v.ReferenceFree := fun v there =>
      selectedFree plain flat literal bare selected (current.symm.trans there)
    rw [fieldPlain plain flat literal free, current]
    exact selectedTwice plain flat selected
  | true =>
    cases plain with
    | nested _ =>
      obtain ⟨objects, selective⟩ := nested _ rfl
      exact nestedAgain stable objects selective bare selected current deep
    | _ => cases flat

theorem fieldEntriesAgain {fields : List (String × Spec F)} {directives : List (Directive F)}
    (objects : (Projection.object fields directives).Objects)
    (selective : (Projection.object fields directives).Selective) {data : Value} (bare : data.Bare)
    {fs : List (String × Value)} (given : base.data = .projected fs) (deep : base.depth = inv.depth)
    {f : String × Spec F} (member : f ∈ fields)
    (selected : Select.field below data f = .ok ((Entries.get? fs f.1).map (f.1, ·))) :
    (fieldEntries (evaluate (.single engine)) [] inv base f).eval answers =
      (.ok ((Entries.get? fs f.1).map (f.1, ·)) : Except Error _).map Option.toList := by
  obtain ⟨key, spec⟩ := f
  obtain ⟨found, here, same⟩ := mapOk.mp selected
  have inPlace : found = Entries.get? fs key :=
    Option.map_injective (Prod.mk_right_injective key) same
  have current : (base.atKey (.field key)).current? = found := by
    rw [inPlace, Context.current?, Context.atKey, given]
    rfl
  have literal : ∀ v, spec = .literal v → v.ReferenceFree := by
    rintro v rfl
    exact selective.literals v (.field member)
  have nested : ∀ p, spec = .nested p → p.Objects ∧ p.Selective := by
    rintro p rfl
    obtain ⟨each⟩ := objects
    exact ⟨each key p member, selective.nested member⟩
  have again := fieldAgain (c := base.atKey (.field key)) stable (selective.spec member) literal
    nested (fun v shown => bare.child shown) here current deep
  rw [fieldEntries, Run.evalThen, again, inPlace]
  cases Entries.get? fs key <;> rfl

theorem recordAgain {fields : List (String × Spec F)} {directives : List (Directive F)}
    (objects : (Projection.object fields directives).Objects)
    (selective : (Projection.object fields directives).Selective) {data : Value} (bare : data.Bare)
    {selected : List (Option (String × Value))}
    (each : List.Forall₂ (fun f s => Select.field below data f = .ok s) fields selected)
    (given : base.data = .projected selected.reduceOption) (deep : base.depth = inv.depth) :
    (record (evaluate (.single engine)) [] inv base fields directives).eval answers =
      .ok (.projected selected.reduceOption) := by
  obtain ⟨distinct, _, arrays⟩ := selective.plain
  let entry (f : String × Spec F) : Option (String × Value) :=
    (Entries.get? selected.reduceOption f.1).map (f.1, ·)
  have named : List.Forall₂ (fun name s => ∀ e, s = some e → e.1 = name)
      (fields.map Prod.fst) selected := by
    rw [List.forall₂_map_left_iff]
    refine each.imp fun f s here => ?_
    rintro e rfl
    obtain ⟨v, _, same⟩ := mapOk.mp here
    obtain ⟨_, _, rfl⟩ := Option.map_eq_some_iff.mp same
    rfl
  have inPlace : selected = fields.map entry := by
    have looked := Entries.lookupsSelected named distinct
    rwa [List.map_map] at looked
  have selects : ∀ f ∈ fields, Select.field below data f = .ok (entry f) := by
    rw [inPlace, List.forall₂_map_right_iff, List.forall₂_same] at each
    exact each
  have entries : fields.mapM (fun f => (.ok (entry f) : Except Error _)) = .ok selected := by
    rw [inPlace]
    exact List.mapM_pure
  rw [recordEvaluates arrays fun f member =>
    fieldEntriesAgain stable objects selective bare given deep member (selects f member), entries]
  exact congrArg Except.ok (assembleSelected distinct each directives)

omit stable in
theorem itemsAgain {fields : List (String × Spec F)} {directives : List (Directive F)}
    (shown : inv.projection = .object fields directives) {xs : List Value}
    (each : ∀ x ∈ xs, Stable engine answers inv.engine inv.projection (inv.depth + 1) x)
    (deep : base.depth = inv.depth) (config : Config) :
    (items (evaluate (.single engine)) config inv base xs).eval answers = .ok (.array xs) := by
  have again : ∀ x ∈ xs, ∀ index,
      (item (evaluate (.single engine)) inv base index inv.projection x).eval answers =
        .ok (some x) := fun x member index =>
    (each x member).same (inv.nested inv.projection (base.atKey (.index index))) rfl rfl
      (congrArg (· + 1) deep)
  have gathered : (Run.gather (broadcast (evaluate (.single engine)) inv base xs)).eval answers =
      .ok (xs.map some) := by
    have structured : xs.filter Value.isStructured = xs :=
      List.filter_eq_self.mpr fun x member => (each x member).output.isStructured
    rw [broadcastEvaluates again, structured]
    exact List.mapM_pure
  have kept : present (xs.map some) = xs := by
    rw [present, List.filterMap_map]
    exact (List.filterMap_congr fun x member => dropNullOutput (each x member).output).trans
      List.filterMap_some
  have all : (do return Value.array (present (← Run.gather (broadcast (evaluate (.single engine)) inv
      base xs))) : Run F Value).eval answers = .ok (.array xs) := by
    rw [Run.evalThen, gathered, okThen, kept]
    rfl
  unfold items
  rw [shown]
  exact all

theorem wholeAgain {fields : List (String × Spec F)} {directives : List (Directive F)}
    (shown : inv.projection = .object fields directives) (objects : inv.projection.Objects)
    (selective : inv.projection.Selective) (plain : engine.transformers = [])
    {data v : Value} (bare : data.Bare) (whole : Select.whole below data inv.projection = .ok v)
    (given : base.data = v) (deep : base.depth = inv.depth) :
    v.Output ∧ (level engine (evaluate (.single engine)) inv base v).eval answers = .ok v := by
  rw [shown] at whole objects selective
  obtain ⟨selected, each, same⟩ := bindOk.mp whole
  cases same
  have again := recordAgain stable objects selective bare (mapMOk each) given deep
  refine ⟨.projected _, ?_⟩
  simp only [level, itemwise?, Value.items?, shown, plain]
  exact again

theorem eachAgain {fields : List (String × Spec F)} {directives : List (Directive F)}
    (shown : inv.projection = .object fields directives) (objects : inv.projection.Objects)
    (selective : inv.projection.Selective) {xs : List Value} {v : Value}
    (bare : ∀ x ∈ xs, x.Bare) (each : Select.each below xs inv.projection = .ok v)
    (deep : base.depth = inv.depth) :
    v.Output ∧ (level engine (evaluate (.single engine)) inv base v).eval answers = .ok v := by
  obtain ⟨selected, ok, same⟩ : ∃ selected,
      (xs.filter Value.isStructured).mapM (below inv.projection) = .ok selected ∧
        Value.array selected.reduceOption = v := by
    rw [shown] at each ⊢
    obtain ⟨selected, ok, same⟩ := bindOk.mp each
    exact ⟨selected, ok, by cases same; rfl⟩
  subst same
  have eachStable : ∀ x ∈ selected.reduceOption,
      Stable engine answers inv.engine inv.projection (inv.depth + 1) x := by
    intro x member
    obtain ⟨d, inside, gave⟩ := mapMSource ok (List.reduceOption_mem_iff.mp member)
    exact stable objects selective (bare d (List.mem_of_mem_filter inside)) gave
  have structured : selected.reduceOption.all Value.isStructured = true :=
    List.all_eq_true.mpr fun x member => (eachStable x member).output.isStructured
  have itemwise : itemwise? inv.projection (.array selected.reduceOption) =
      some selected.reduceOption := by
    simp only [itemwise?, Value.items?, structured, Bool.or_true, if_true]
  refine ⟨.array fun x member => (eachStable x member).output, ?_⟩
  rw [level, itemwise]
  exact itemsAgain shown eachStable deep engine.config

theorem levelAgain (objects : inv.projection.Objects) (selective : inv.projection.Selective)
    (plain : engine.transformers = []) {data v : Value} (bare : data.Bare)
    (selected : Select.level below inv.projection data = .ok v) (given : base.data = v)
    (deep : base.depth = inv.depth) :
    v.Output ∧ (level engine (evaluate (.single engine)) inv base v).eval answers = .ok v := by
  obtain ⟨fields, directives, shown⟩ : ∃ fields directives,
      inv.projection = .object fields directives := by
    generalize inv.projection = p at objects
    cases objects
    exact ⟨_, _, rfl⟩
  unfold Select.level at selected
  split at selected
  · split at selected
    · exact eachAgain stable shown objects selective (fun x member => bare.item member) selected deep
    · exact wholeAgain stable shown objects selective plain bare selected given deep
  · exact wholeAgain stable shown objects selective plain bare selected given deep

end Level

theorem outputEvaluates {engine : Engine F} {answers : Answers F} {inv : Invocation F}
    {global : Scope F} (resolves : answers.global inv.engine = .ok global)
    (allowed : inv.depth ≤ engine.limit) {v : Value} (output : v.Output) :
    (evaluate (.single engine) inv v).eval answers = ((level engine (evaluate (.single engine)) inv
      (baseContext inv global v) v).eval answers).map some := by
  have read : readData engine.config v = .ok v := by
    cases output <;> rfl
  have once := stepAllowed allowed (evaluate (.single engine)) v
  rw [if_pos output.isTruthy, read] at once
  rw [evaluateRecursive (.single engine)]
  exact (congrArg (Run.eval answers) once).trans
    (readLevelEvaluates resolves output.isTruthy (evaluate (.single engine)))

theorem selectedAgain {engine : Engine F} (plain : engine.transformers = []) {answers : Answers F}
    {id : Nat} {global : Scope F} (resolves : answers.global id = .ok global) {left depth : Nat}
    (near : engine.limit < depth + left) {p : Projection F} (objects : p.Objects)
    (selective : p.Selective) {data v : Value} (bare : data.Bare)
    (selected : select engine.config p data depth = .ok (some v)) :
    Stable engine answers id p depth v := by
  induction left generalizing depth p data v with
  | zero =>
    obtain ⟨allowed, _⟩ := selectedThere selected
    exact absurd near (Nat.not_lt.mpr allowed)
  | succ left ih =>
    obtain ⟨allowed, read, found, level⟩ := selectedThere selected
    have below : StableBelow engine answers id depth fun p data =>
        select engine.config p data (depth + 1) :=
      fun objects selective bare selected => ih (by omega) objects selective bare selected
    have again : ∀ inv : Invocation F, inv.engine = id → inv.projection = p → inv.depth = depth →
        v.Output ∧ (evaluate (.single engine) inv v).eval answers = .ok (some v) := by
      rintro inv rfl rfl rfl
      have there := documentBare bare found
      have base : (baseContext inv global v).data = v := rfl
      obtain ⟨output, same⟩ := levelAgain below objects selective plain there level base rfl
      rw [outputEvaluates resolves allowed output, same]
      exact ⟨output, rfl⟩
    exact ⟨(again ⟨id, p, none, none, none, depth⟩ rfl rfl rfl).1, fun inv engine projection deep =>
      (again inv engine projection deep).2⟩

/- The runs may differ in what their hosts answer and in the instance scope: the second, like the
first, needs nothing but a global scope that resolves. -/
theorem projectedAgain {p : Projection F} (objects : p.Objects) (selective : p.Selective)
    (engine : Engine F) (plain : engine.transformers = []) (id : Nat) (context : Option (Scope F))
    {first second : Answers F} {global global' : Scope F}
    (resolves : first.global id = .ok global) (resolvesAgain : second.global id = .ok global')
    (inst inst' : Option (Scope F)) {data v : Value} (bare : data.Bare)
    (came : ((Projector.mk p context id).project (.single engine) data inst).eval first =
      .ok (some v)) :
    ((Projector.mk p context id).project (.single engine) v inst').eval second = .ok (some v) := by
  have near : engine.limit < 0 + (engine.limit + 1) := by omega
  have selected : select engine.config p data 0 = .ok (some v) := by
    rw [projectEvaluates] at came
    exact (evaluateSelects plain near resolves selective bare).symm.trans came
  rw [projectEvaluates]
  exact (selectedAgain plain resolvesAgain near objects selective bare selected).same _ rfl rfl rfl

def lineShape : Projection Unit := .object [("n", .passthrough)] [.array]

def noteShape : Projection Unit :=
  .object [("on", .typed .date), ("note", .literal (.string "\x7bkept")), ("gone", .typed .string),
    ("lines", .nested lineShape)] []

def note : Value :=
  .record [("lines", .array [.string "Ann", .record [("n", .ofNat 2)]]), ("gone", .null),
    ("on", .ofNat 86400000)]

def noteOut : Value :=
  .projected [("on", .date ⟨86400, 0⟩), ("note", .string "\x7bkept"),
    ("lines", .array [.projected [("n", .ofNat 2)]])]

theorem noteObjects : noteShape.Objects := by
  refine .object fun key p member => ?_
  obtain ⟨rfl, rfl⟩ : key = "lines" ∧ p = lineShape := by simpa using member
  exact .object fun key p member => by simp at member

theorem notePlain : noteShape.Plain := by
  have line : lineShape.Plain := by
    refine .object (by simp [Entries.Distinct, Entries.keys]) (fun f member => ?_) (by simp)
    obtain rfl := List.mem_singleton.mp member
    exact .passthrough
  refine .object (by simp [Entries.Distinct, Entries.keys]) ?_ (List.forall_mem_nil _)
  simp only [List.forall_mem_cons]
  exact ⟨.typed _, .literal _, .typed _, .nested line, List.forall_mem_nil _⟩

theorem noteLiterals {v : Value} (literal : noteShape.HasLiteral v) : v.ReferenceFree := by
  obtain rfl : v = .string "\x7bkept" := by
    simpa [noteShape, lineShape, Projection.objectHasLiteral] using literal
  rintro s inside r ⟨body, _, _, rfl⟩ part
  obtain rfl := Value.stringHasString.mp inside
  have closing : '\x7d' ∈ "\x7bkept".toList := part.subset (by simp)
  simp at closing

theorem noteBare : note.Bare := by
  intro s inside
  obtain rfl : s = "Ann" := by simpa [note, Value.ofNat] using inside
  simp [Text.Bare]

theorem noteProjectedAgain :
    ((Projector.mk noteShape none 0).project (.single {}) note none).eval failing =
      .ok (some noteOut) ∧
    ((Projector.mk noteShape none 0).project (.single {}) noteOut (some [])).eval failing =
      .ok (some noteOut) := by
  have came : ((Projector.mk noteShape none 0).project (.single {}) note none).eval failing =
      .ok (some noteOut) := rfl
  obtain ⟨global, resolves⟩ : ∃ global, failing.global 0 = .ok global := ⟨_, rfl⟩
  have again := projectedAgain noteObjects ⟨notePlain, fun _ => noteLiterals⟩ {} rfl 0 none
    resolves resolves none (some []) noteBare came
  exact ⟨came, again⟩

end Evaluate
end Reshape
