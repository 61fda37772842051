import Reshape.Evaluate.Level
import Reshape.Proofs.Evaluate.ReferenceFree
import Reshape.Proofs.Projection.Plain
import Reshape.Proofs.Projection.Selection
import Reshape.Proofs.Run.Composed
import Reshape.Proofs.Value.Output
/-! One level of a plain projection on data without references and without transformers. If the
levels below select, the level selects: its fields, its positions and its items, in any context. -/
namespace Reshape.Evaluate
open Fallible
variable {F : Type}

structure Selects (answers : Answers F) (apply : Apply F) (inv : Invocation F) (base : Context F)
    (below : Select F) : Prop where
  agrees : ∀ {p d c}, p.Selective → d.Bare → c.depth = base.depth →
    (apply (inv.nested p c) d).eval answers = below p d
  falsy : ∀ p d, d.isTruthy = false → below p d = .ok none
  notNull : ∀ p d, below p d ≠ .ok (some .null)

section Level
variable {answers : Answers F} {apply : Apply F} {inv : Invocation F} {base c : Context F}
  {below : Select F}

theorem nestedSelects (selects : Selects answers apply inv base below) {p : Projection F}
    (selective : p.Selective) (deep : c.depth = base.depth)
    (bare : ∀ v, c.current? = some v → v.Bare) :
    (rawValue apply inv c (.nested p)).eval answers = Select.spec below c.current? (.nested p) := by
  simp only [rawValue, Select.spec]
  cases shown : c.current? with
  | none => rfl
  | some data =>
    dsimp only
    split
    · exact selects.agrees selective (bare data shown) deep
    · rename_i falsy
      rw [selects.falsy p data (by simpa using falsy)]
      rfl

theorem fieldNested (selects : Selects answers apply inv base below) {p : Projection F}
    (selective : p.Selective) (deep : c.depth = base.depth)
    (bare : ∀ v, c.current? = some v → v.Bare) :
    (field apply [] inv c (.nested p)).eval answers = Select.spec below c.current? (.nested p) := by
  rw [field, Run.evalThen, nestedSelects selects selective deep bare]
  cases selected : Select.spec below c.current? (.nested p) with
  | error e => rfl
  | ok raw =>
    have kept : dropNull raw = raw := by
      refine dropNullNotNull ?_
      rintro rfl
      simp only [Select.spec] at selected
      split at selected
      · exact selects.notNull p _ selected
      · cases selected
    rw [okThen, kept]
    cases raw with
    | none => rfl
    | some v =>
      simp only [Spec.isProjection, Bool.or_true, if_true]
      rfl

theorem fieldPlain {spec : Spec F} (plain : spec.Plain) (flat : spec.isProjection = false)
    (literal : ∀ v, spec = .literal v → v.ReferenceFree)
    (free : ∀ v, c.current? = some v → v.ReferenceFree) :
    (field apply [] inv c spec).eval answers = Select.spec below c.current? spec := by
  have passed : rawValue apply inv c spec = pure c.current? →
      (field apply [] inv c spec).eval answers = .ok (dropNull c.current?) := by
    intro given
    rw [fieldGiven apply c given free]
    rfl
  cases plain with
  | typed tag =>
    cases tag with
    | date =>
      rw [fieldGiven apply c rfl]
      · simp only [Select.spec]
        cases c.current?.bind Value.toDate? <;> rfl
      · rintro v shown s inside
        obtain ⟨t, _, rfl⟩ := Option.map_eq_some_iff.mp shown
        cases inside
    | _ => exact passed rfl
  | passthrough => exact passed rfl
  | literal v =>
    rw [fieldGiven apply c rfl]
    · exact congrArg Except.ok (dropNullNotNull (truthyNotNull v))
    · intro w shown
      split at shown
      · cases shown
        exact literal v rfl
      · cases shown
  | nested _ => cases flat

theorem fieldSelects (selects : Selects answers apply inv base below) {spec : Spec F}
    (plain : spec.Plain) (literal : ∀ v, spec = .literal v → v.ReferenceFree)
    (nested : ∀ p, spec = .nested p → p.Selective) (deep : c.depth = base.depth)
    (bare : ∀ v, c.current? = some v → v.Bare) :
    (field apply [] inv c spec).eval answers = Select.spec below c.current? spec := by
  have free : ∀ v, c.current? = some v → v.ReferenceFree := fun v shown =>
    (bare v shown).referenceFree
  cases plain with
  | nested _ => exact fieldNested selects (nested _ rfl) deep bare
  | typed tag => exact fieldPlain (.typed tag) rfl literal free
  | passthrough => exact fieldPlain .passthrough rfl literal free
  | literal v => exact fieldPlain (.literal v) rfl literal free

theorem fieldEntriesSelects (selects : Selects answers apply inv base below)
    {fields : List (String × Spec F)} {directives : List (Directive F)}
    (selective : (Projection.object fields directives).Selective) (bare : base.data.Bare)
    {f : String × Spec F} (member : f ∈ fields) :
    (fieldEntries apply [] inv base f).eval answers =
      (Select.field below base.data f).map Option.toList := by
  obtain ⟨key, spec⟩ := f
  have current : (base.atKey (.field key)).current? = base.data.get? key := rfl
  have literal : ∀ v, spec = .literal v → v.ReferenceFree := by
    rintro v rfl
    exact selective.literals v (.field member)
  have nested : ∀ p, spec = .nested p → p.Selective := by
    rintro p rfl
    exact selective.nested member
  have selected := fieldSelects (c := base.atKey (.field key)) selects (selective.spec member)
    literal nested rfl fun v found => bare.child found
  rw [fieldEntries, Run.evalThen, selected, current, Select.field]
  cases Select.spec below (base.data.get? key) spec with
  | error e => rfl
  | ok v => cases v <;> rfl

theorem selectedKeys {fields : List (String × Spec F)} {data : Value}
    {selected : List (Option (String × Value))}
    (each : List.Forall₂ (fun f s => Select.field below data f = .ok s) fields selected) :
    (selected.reduceOption.map Prod.fst).Sublist (fields.map Prod.fst) := by
  induction each with
  | nil => exact List.nil_sublist _
  | @cons f s fields selected here _ ih =>
    obtain ⟨v, _, rfl⟩ := mapOk.mp here
    cases v with
    | none => exact ih.cons f.1
    | some v => exact ih.cons_cons f.1

theorem selectedFlatten (selected : List (Option (String × Value))) :
    (selected.map Option.toList).flatten = selected.reduceOption := by
  rw [List.reduceOption, List.filterMap_eq_flatMap_toList]
  rfl

theorem assembleSelected {fields : List (String × Spec F)} {data : Value}
    {selected : List (Option (String × Value))} (distinct : Entries.Distinct fields)
    (each : List.Forall₂ (fun f s => Select.field below data f = .ok s) fields selected)
    (directives : List (Directive F)) :
    assemble (selected.map Option.toList ++ directives.map fun _ => []) =
      .projected selected.reduceOption := by
  have none : (directives.map fun _ => ([] : List (String × Value))).flatten = [] := by simp
  rw [assemble, List.flatten_append, none, List.append_nil, selectedFlatten,
    Entries.ofListDistinct (distinct.sublist (selectedKeys each))]

theorem fieldsEvaluate {ts : List (Transformer F)} {fields : List (String × Spec F)}
    {entry : String × Spec F → Except Error (Option (String × Value))}
    (each : ∀ f ∈ fields,
      (fieldEntries apply ts inv base f).eval answers = (entry f).map Option.toList) :
    (fields.map (fieldEntries apply ts inv base)).mapM (Run.eval answers) =
      (fields.mapM entry).map (List.map Option.toList) := by
  rw [List.mapM_map, ← mapMThenMap]
  exact mapMCongr each

theorem recordEvaluates {ts : List (Transformer F)} {fields : List (String × Spec F)}
    {directives : List (Directive F)} (arrays : ∀ d ∈ directives, d = .array)
    {entry : String × Spec F → Except Error (Option (String × Value))}
    (each : ∀ f ∈ fields,
      (fieldEntries apply ts inv base f).eval answers = (entry f).map Option.toList) :
    (record apply ts inv base fields directives).eval answers =
      (fields.mapM entry).map fun selected =>
        assemble (selected.map Option.toList ++ directives.map fun _ => []) := by
  have directiveParts : (directives.map (directiveEntries apply inv base)).mapM (Run.eval answers) =
      .ok (directives.map fun _ => []) := by
    rw [List.mapM_map]
    refine (mapMCongr fun d member => ?_).trans List.mapM_pure
    rw [arrays d member]
    rfl
  rw [record, Run.evalThen, Run.evalGather, List.mapM_append, fieldsEvaluate each, directiveParts]
  cases fields.mapM entry <;> rfl

theorem recordSelects (selects : Selects answers apply inv base below)
    {fields : List (String × Spec F)} {directives : List (Directive F)}
    (selective : (Projection.object fields directives).Selective) (bare : base.data.Bare) :
    (record apply [] inv base fields directives).eval answers =
      Select.whole below base.data (.object fields directives) := by
  obtain ⟨distinct, _, arrays⟩ := selective.plain
  rw [recordEvaluates arrays fun f member => fieldEntriesSelects selects selective bare member,
    Select.whole]
  cases selected : fields.mapM (Select.field below base.data) with
  | error e => rfl
  | ok entries =>
    exact congrArg Except.ok (assembleSelected distinct (mapMOk selected) directives)

theorem slotsSelects (selects : Selects answers apply inv base below)
    {ps : List (Projection F)} (selective : (Projection.list ps).Selective) (bare : base.data.Bare) :
    (slots apply [] inv base ps).eval answers = Select.whole below base.data (.list ps) := by
  have each : ∀ slot ∈ ps.zipIdx,
      (field apply [] inv (base.atKey (.field (toString slot.2))) (.nested slot.1)).eval answers =
        Select.position below base.data slot := fun slot member =>
    fieldNested selects (selective.slot (List.fst_mem_of_mem_zipIdx member)) rfl
      fun v found => bare.child found
  rw [slots, Run.evalThen, Run.evalGatherMap, Select.whole, ← mapMCongr each]
  rfl

theorem selectedPresent {α : Type} {job : α → Except Error (Option Value)} {items : List α}
    {results : List (Option Value)} (notNull : ∀ a, job a ≠ .ok (some .null))
    (ok : items.mapM job = .ok results) : present results = results.reduceOption := by
  refine List.filterMap_congr fun r member => dropNullNotNull ?_
  rintro rfl
  obtain ⟨a, _, null⟩ := mapMSource ok member
  exact notNull a null

theorem collectedPresent {α : Type} {job : α → Except Error (Option Value)}
    (notNull : ∀ a, job a ≠ .ok (some .null)) (items : List α) :
    (items.mapM job >>= fun results => return Value.array (present results)) =
      (items.mapM job >>= fun results => return Value.array results.reduceOption) := by
  cases ok : items.mapM job with
  | error e => rfl
  | ok results =>
    change Except.ok (Value.array (present results)) = .ok (.array results.reduceOption)
    rw [selectedPresent notNull ok]

theorem itemSelects (selects : Selects answers apply inv base below) {p : Projection F}
    (selective : p.Selective) {data : Value} (bare : data.Bare) (index : Nat) :
    (item apply inv base index p data).eval answers = below p data :=
  selects.agrees selective bare rfl

theorem pairedSelects (selects : Selects answers apply inv base below)
    {ps : List (Projection F)} (selective : (Projection.list ps).Selective) {xs : List Value}
    (bare : ∀ x ∈ xs, x.Bare) :
    (Run.gather (paired apply inv base xs ps)).eval answers =
      (xs.zip ps).mapM fun (data, slot) => below slot data := by
  have each : ∀ pair ∈ (xs.zip ps).zipIdx,
      (item apply inv base pair.2 pair.1.2 pair.1.1).eval answers =
        ((fun (data, slot) => below slot data) ∘ Prod.fst) pair := by
    intro pair member
    have inside := List.of_mem_zip (List.fst_mem_of_mem_zipIdx member)
    exact itemSelects selects (selective.slot inside.2) (bare _ inside.1) _
  rw [paired, Run.evalGatherMap, mapMCongr each, ← List.mapM_map, List.zipIdx_map_fst]

theorem broadcastEvaluates {xs : List Value} {entry : Value → Except Error (Option Value)}
    (each : ∀ x ∈ xs, ∀ index,
      (item apply inv base index inv.projection x).eval answers = entry x) :
    (Run.gather (broadcast apply inv base xs)).eval answers =
      (xs.filter Value.isStructured).mapM entry := by
  have evaluated : ∀ pair ∈ xs.zipIdx.filter (·.1.isStructured),
      (item apply inv base pair.2 inv.projection pair.1).eval answers =
        (entry ∘ Prod.fst) pair := fun pair member =>
    each pair.1 (List.fst_mem_of_mem_zipIdx (List.mem_of_mem_filter member)) pair.2
  rw [broadcast, Run.evalGatherMap, mapMCongr evaluated, ← List.mapM_map, Value.structuredPlaces]

theorem itemsSelects (selects : Selects answers apply inv base below)
    (selective : inv.projection.Selective) (config : Config) {xs : List Value}
    (bare : ∀ x ∈ xs, x.Bare) :
    (items apply config inv base xs).eval answers = Select.each below xs inv.projection := by
  have broadcast : (Run.gather (broadcast apply inv base xs)).eval answers =
      (xs.filter Value.isStructured).mapM (below inv.projection) :=
    broadcastEvaluates fun x member index => itemSelects selects selective (bare x member) index
  unfold items
  cases shown : inv.projection with
  | object fields directives =>
    rw [shown] at broadcast
    dsimp only
    rw [Run.evalThen, broadcast]
    exact collectedPresent (selects.notNull _) _
  | list ps =>
    rw [shown] at selective
    have gathered : (do return Value.array (present (← Run.gather (paired apply inv base xs ps))) :
        Run F Value).eval answers = Select.each below xs (.list ps) := by
      rw [Run.evalThen, pairedSelects selects selective bare]
      exact collectedPresent (fun pair => selects.notNull _ _) _
    dsimp only
    split
    · exact gathered
    · exact gathered

theorem wholeSelects (selects : Selects answers apply inv base below)
    (selective : inv.projection.Selective) (bare : base.data.Bare) :
    (match inv.projection with
      | .object fields directives => record apply [] inv base fields directives
      | .list ps => slots apply [] inv base ps).eval answers =
      Select.whole below base.data inv.projection := by
  cases shown : inv.projection with
  | object fields directives =>
    rw [shown] at selective
    exact recordSelects selects selective bare
  | list ps =>
    rw [shown] at selective
    exact slotsSelects selects selective bare

theorem levelSelects (selects : Selects answers apply inv base below)
    (selective : inv.projection.Selective) {engine : Engine F} (plain : engine.transformers = [])
    (bare : base.data.Bare) :
    (level engine apply inv base base.data).eval answers =
      Select.level below inv.projection base.data := by
  have whole := wholeSelects selects selective bare
  unfold level itemwise? Select.level
  rw [plain]
  cases shown : base.data with
  | array xs =>
    rw [shown] at whole bare
    cases itemwise : inv.projection.isArray || xs.all Value.isStructured with
    | true =>
      simp only [Value.items?, itemwise, if_true]
      exact itemsSelects selects selective engine.config fun x member => bare.item member
    | false =>
      simp only [Value.items?, itemwise, Bool.false_eq_true, if_false]
      exact whole
  | _ =>
    rw [shown] at whole
    exact whole

end Level

end Reshape.Evaluate
