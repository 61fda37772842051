import Reshape.Proofs.Evaluate.Items
import Reshape.Proofs.Evaluate.Selection
import Reshape.Proofs.Projection.Shallower
/-! Projections that conditions inline. Where the predicates are decided beforehand, each projection
that is inlined is applied to the data of the level as if it were projected alone, and what it gives
is laid over the fields in turn. The data has been read by then; a string that an engine has read from
JSON text is read as JSON text once more. -/
namespace Reshape
variable {F : Type}

inductive Condition.Decided : Condition F → Prop where
  | never (source : Source F) : Condition.Decided ⟨.always false, source⟩
  | inlined {q : Projection F} (selective : q.Selective) : Condition.Decided ⟨.always true, .inline q⟩

def Condition.inlined? : Condition F → Option (Projection F)
  | ⟨.always true, .inline q⟩ => some q
  | _ => none

theorem Condition.inlinedSelective {items : List (Condition F)} (decided : ∀ i ∈ items, i.Decided)
    {q : Projection F} (member : q ∈ items.filterMap inlined?) : q.Selective := by
  obtain ⟨i, inside, same⟩ := List.mem_filterMap.mp member
  cases decided i inside with
  | never source => cases same
  | inlined selective =>
    cases same
    exact selective

namespace Evaluate
open Fallible

section Level
variable {answers : Answers F} {apply : Apply F} {inv : Invocation F} {base : Context F}
  {below : Select F} (selects : Selects answers apply inv base below) (bare : base.data.Bare)
include selects bare

theorem inlineEntries {q : Projection F} (selective : q.Selective) (key : Key) :
    (conditionEntries apply inv (base.atKey key) ⟨.always true, .inline q⟩).eval answers =
      (below q base.data).map entriesOf := by
  have deep : (base.atKey key).depth = base.depth := rfl
  change (apply (inv.nested q (base.atKey key)) base.data >>= fun v => pure (entriesOf v)).eval answers = _
  rw [Run.evalThen, selects.agrees selective bare deep]
  cases below q base.data <;> rfl

theorem decidedEntries {items : List (Condition F)} (decided : ∀ i ∈ items, i.Decided) (key : Key) :
    (items.mapM fun i => (conditionEntries apply inv (base.atKey key) i).eval answers).map List.flatten =
      ((items.filterMap Condition.inlined?).mapM fun q =>
        (below q base.data).map entriesOf).map List.flatten := by
  induction items with
  | nil => rfl
  | cons i rest ih =>
    obtain ⟨here, behind⟩ := List.forall_mem_cons.mp decided
    rw [mapMFlattenCons, ih behind]
    cases here with
    | never source =>
      rw [List.filterMap_cons_none rfl]
      exact congrFun Except.map_id _
    | @inlined q selective =>
      have shown : Condition.inlined? ⟨.always true, .inline q⟩ = some q := rfl
      rw [inlineEntries selects bare selective, List.filterMap_cons_some shown, mapMFlattenCons]

theorem conditionsEvaluate {items : List (Condition F)} (decided : ∀ i ∈ items, i.Decided) :
    (directiveEntries apply inv base (.conditions items)).eval answers =
      ((items.filterMap Condition.inlined?).mapM fun q => below q base.data).map fun added =>
        (added.map entriesOf).flatten := by
  change (Run.gather (items.map (conditionEntries apply inv (base.atKey (.field conditionsKey)))) >>=
    fun parts => pure parts.flatten).eval answers = _
  rw [Run.evalThen, Run.evalGatherMap]
  refine (decidedEntries selects bare decided _).trans ?_
  rw [mapMThenMap]
  cases (items.filterMap Condition.inlined?).mapM fun q => below q base.data <;> rfl

theorem recordExtended {fields : List (String × Spec F)} {directives : List (Directive F)}
    (selective : (Projection.object fields directives).Selective) {items : List (Condition F)}
    (decided : ∀ i ∈ items, i.Decided) :
    (record apply [] inv base fields [.conditions items]).eval answers = (do
      let selected ← fields.mapM (Select.field below base.data)
      let added ← (items.filterMap Condition.inlined?).mapM fun q => below q base.data
      return .projected ((added.map entriesOf).foldl Entries.overlay selected.reduceOption)) := by
  obtain ⟨distinct, _, _⟩ := selective.plain
  have own := fieldsEvaluate fun f member => fieldEntriesSelects selects selective bare member
  rw [record, Run.evalThen, Run.evalGather, List.mapM_append, own, List.map_singleton, List.mapM_cons,
    conditionsEvaluate selects bare decided]
  cases chosen : fields.mapM (Select.field below base.data) with
  | error e => rfl
  | ok selected =>
    cases (items.filterMap Condition.inlined?).mapM fun q => below q base.data with
    | error e => rfl
    | ok added =>
      have keys := distinct.sublist (selectedKeys (mapMOk chosen))
      change Except.ok (assemble (selected.map Option.toList ++ [(added.map entriesOf).flatten])) = .ok _
      rw [assemble, List.flatten_append, selectedFlatten, List.flatten_singleton,
        Entries.ofListFollowed keys]

end Level

section Top
variable {engine : Engine F} (plain : engine.transformers = []) {answers : Answers F} {id : Nat}
  {global : Scope F} (resolves : answers.global id = .ok global) (context inst : Option (Scope F))

def alone (engine : Engine F) (answers : Answers F) (id : Nat) (context inst : Option (Scope F))
    (q : Projection F) (data : Value) : Except Error (Option Value) :=
  ((Projector.mk q context id).project (.single engine) data inst).eval answers

/- Reading again what was read gives the same, unless it is a string that is taken for JSON text. -/
theorem aloneRead {data read : Value} (found : readData engine.config data = .ok read)
    (truthy : read.isTruthy = true)
    (settled : engine.config.parseStrings = true → ∀ text, read ≠ .string text) (q : Projection F) :
    alone engine answers id context inst q read = alone engine answers id context inst q data := by
  have again : readData engine.config read = .ok read := by
    cases read with
    | string text =>
      cases parses : engine.config.parseStrings with
      | true => exact absurd rfl (settled parses text)
      | false => rw [readData, parses]; rfl
    | _ => rfl
  have allowed : ((Projector.mk q context id).invocation inst none).depth ≤ engine.limit := Nat.zero_le _
  unfold alone
  rw [projectEvaluates, projectEvaluates, evaluateRecursive, evaluateRecursive]
  change (step engine _ _ read).eval answers = (step engine _ _ data).eval answers
  rw [stepReads allowed again truthy, stepReads allowed found (readTruthy found truthy)]

include plain resolves

theorem aloneSelects {q : Projection F} (selective : q.Selective) {data : Value} (bare : data.Bare) :
    alone engine answers id context inst q data = select engine.config q data 0 := by
  have near : engine.limit < 0 + (engine.limit + 1) := by omega
  rw [alone, projectEvaluates]
  exact evaluateSelects plain near resolves selective bare

omit plain resolves in
theorem levelWhole {below : Select F} {q : Projection F} {read : Value}
    (single : itemwise? q read = none) : Select.level below q read = Select.whole below read q := by
  cases read with
  | array xs =>
    cases itemwise : q.isArray || xs.all Value.isStructured with
    | true => simp [itemwise?, Value.items?, itemwise] at single
    | false => simp only [Select.level, itemwise, Bool.false_eq_true, if_false]
  | _ => rfl

section Record
variable {fields : List (String × Spec F)} (selective : (Projection.object fields []).Selective)
  {items : List (Condition F)} (decided : ∀ i ∈ items, i.Decided) {data : Value} (bare : data.Bare)
  {read : Value} (found : readData engine.config data = .ok read) (truthy : read.isTruthy = true)
  (single : itemwise? (.object fields []) read = none)
include selective bare found truthy single

theorem aloneOwn : alone engine answers id context inst (.object fields []) data = (do
    let selected ← fields.mapM
      (Select.field (fun q inner => select engine.config q inner 1) read)
    return some (.projected selected.reduceOption)) := by
  rw [aloneSelects plain resolves context inst selective bare,
    selectAllowed (readTruthy found truthy) (Nat.zero_le _), ← readDataDocument, found, okThen,
    if_pos truthy, levelWhole single, Select.whole, bind_assoc]
  rfl

include decided

theorem aloneExtended :
    alone engine answers id context inst (.object fields [.conditions items]) data = (do
      let selected ← fields.mapM
        (Select.field (fun q inner => select engine.config q inner 1) read)
      let added ← (items.filterMap Condition.inlined?).mapM fun q => select engine.config q read 1
      return some (.projected
        ((added.map entriesOf).foldl Entries.overlay selected.reduceOption))) := by
  let inv := (Projector.mk (.object fields [.conditions items]) context id).invocation inst none
  have allowed : inv.depth ≤ engine.limit := Nat.zero_le _
  have together : itemwise? inv.projection read = none := single
  have readBare : read.Bare := documentBare bare ((readDataDocument _ _).symm.trans found)
  have resolved : answers.global inv.engine = .ok global := resolves
  have record := recordExtended (selectsBelow plain resolved read) readBare selective decided
  rw [alone, projectEvaluates, evaluateRecursive]
  change (step engine (evaluate (.single engine)) inv data).eval answers = _
  rw [stepReads allowed found (readTruthy found truthy), readLevelEvaluates resolves truthy, level, together,
    plain]
  refine (congrArg (Except.map some) record).trans ?_
  rw [mapThen]
  refine bind_congr fun selected => ?_
  rw [mapThen]
  rfl

end Record

/- A record, and conditions beside its fields. What is inlined is projected from the data that was read;
where reading that again changes nothing, this is what it is projected from the data as it was given. -/
theorem inlinedOverlaid {p : ObjectProjection F} (selective : p.build.Selective)
    (flat : p.directives = []) {items : List (Condition F)} (decided : ∀ i ∈ items, i.Decided)
    {data : Value} (bare : data.Bare) {read : Value} (found : readData engine.config data = .ok read)
    (truthy : read.isTruthy = true) (single : itemwise? p.build read = none)
    (settled : Settled (alone engine answers id context inst (p.conditions items).build data)) :
    (alone engine answers id context inst (p.conditions items).build data = do
      let own ← alone engine answers id context inst p.build data
      let added ← (items.filterMap Condition.inlined?).mapM fun q =>
        alone engine answers id context inst q read
      return some (.projected ((added.map entriesOf).foldl Entries.overlay (entriesOf own)))) ∧
    ((engine.config.parseStrings = true → ∀ text, read ≠ .string text) → ∀ q,
      alone engine answers id context inst q read = alone engine answers id context inst q data) ∧
    ∀ source apply inv c, conditionEntries apply inv c ⟨.always false, source⟩ =
      (pure [] : Run F (Entries Value)) := by
  obtain ⟨fields, directives⟩ := p
  obtain rfl : directives = [] := flat
  refine ⟨?_, aloneRead context inst found truthy, fun _ _ _ _ => rfl⟩
  have extended := aloneExtended plain resolves context inst selective decided bare found truthy single
  change alone engine answers id context inst (.object fields [.conditions items]) data = _
  change Settled (alone engine answers id context inst (.object fields [.conditions items]) data) at settled
  change _ = alone engine answers id context inst (.object fields []) data >>= _
  rw [aloneOwn plain resolves context inst selective bare found truthy single, bind_assoc]
  rw [extended] at settled ⊢
  have readBare : read.Bare := documentBare bare (readDataDocument _ _ ▸ found)
  have near : engine.config.maxDepth < 1 + engine.config.maxDepth := by omega
  symm
  -- What is inlined is one level deeper than the same projection alone, and the limit is not hit there.
  refine Kept.bind (.same _) (fun selected => ?_) settled
  refine .bind (.mapM fun q member => ?_) fun added => .same _
  rw [aloneSelects plain resolves context inst (Condition.inlinedSelective decided member) readBare]
  exact selectShallower near (Nat.zero_le 1) q read

end Top

def pairShape : ObjectProjection Unit :=
  { fields := [("0", .passthrough), ("1", .passthrough)] }

def beside : Projection Unit :=
  .object [("1", .literal (.string "x")), ("c", .literal (.string "y"))] []

def besideOnly : List (Condition Unit) :=
  [⟨.always false, .compute (.closure ())⟩, ⟨.always true, .inline beside⟩]

def pairText : Value := .string "[1,2]"
def pair : Value := .array [.ofNat 1, .ofNat 2]

theorem pairSelective : pairShape.build.Selective where
  plain := by
    refine .object (by simp [pairShape, Entries.Distinct, Entries.keys]) ?_ (List.forall_mem_nil _)
    simp only [pairShape, List.forall_mem_cons]
    exact ⟨.passthrough, .passthrough, List.forall_mem_nil _⟩
  literals v literal := by simp [pairShape, ObjectProjection.build, Projection.objectHasLiteral] at literal

theorem besideSelective : beside.Selective where
  plain := by
    refine .object (by simp [Entries.Distinct, Entries.keys]) ?_ (List.forall_mem_nil _)
    simp only [List.forall_mem_cons]
    exact ⟨.literal _, .literal _, List.forall_mem_nil _⟩
  literals v literal s inside := by
    obtain rfl | rfl : v = .string "x" ∨ v = .string "y" := by
      simpa [beside, Projection.objectHasLiteral, exists_or] using literal
    all_goals
      obtain rfl := Value.stringHasString.mp inside
      exact Text.Bare.free (by simp [Text.Bare])

theorem textBare {text : String} (bare : Text.Bare text.toList) : (Value.string text).Bare := by
  intro s inside
  rwa [Value.stringHasString.mp inside]

theorem pairOverlaid :
    let projected := alone {} failing 0 none none
    projected (pairShape.conditions besideOnly).build pairText =
      .ok (some (.projected [("0", .ofNat 1), ("1", .string "x"), ("c", .string "y")])) ∧
    projected (pairShape.conditions besideOnly).build pairText = (do
      let own ← projected pairShape.build pairText
      let added ← [beside].mapM fun q => projected q pairText
      return some (.projected ((added.map entriesOf).foldl Entries.overlay (entriesOf own)))) := by
  intro projected
  have came : projected (pairShape.conditions besideOnly).build pairText =
      .ok (some (.projected [("0", .ofNat 1), ("1", .string "x"), ("c", .string "y")])) := rfl
  have settled : Settled (projected (pairShape.conditions besideOnly).build pairText) := by
    rw [came]
    intro depth limit stopped
    cases stopped
  have decided : ∀ i ∈ besideOnly, i.Decided := by
    simp only [besideOnly, List.forall_mem_cons]
    exact ⟨.never _, .inlined besideSelective, List.forall_mem_nil _⟩
  have bare : pairText.Bare := textBare (by simp [Text.Bare])
  obtain ⟨global, resolves⟩ : ∃ global, failing.global 0 = .ok global := ⟨_, rfl⟩
  obtain ⟨overlaid, readAgain, _⟩ := inlinedOverlaid rfl resolves none none pairSelective rfl decided bare
    (show readData {} pairText = .ok pair from rfl) rfl rfl settled
  have list : ∀ text, pair ≠ .string text := by
    intro text same
    cases same
  have same : ∀ q, projected q pair = projected q pairText := readAgain fun _ => list
  refine ⟨came, overlaid.trans ?_⟩
  simp only [← same]
  rfl

theorem stringReadTwice :
    let projected := alone {} failing 0 none none
    let quoted := .string "\"abc\""
    let p : ObjectProjection Unit := { fields := [("a", .typed .string)] }
    let q : Projection Unit := .object [("b", .literal (.string "x"))] []
    quoted.Bare ∧ readData {} quoted = .ok (.string "abc") ∧
    projected p.build quoted = .ok (some (.projected [])) ∧
    projected q quoted = .ok (some (.projected [("b", .string "x")])) ∧
    projected (p.conditions [⟨.always true, .inline q⟩]).build quoted =
      .error (.malformedInput "abc" "expected value at line 1 column 1") :=
  ⟨textBare (by simp [Text.Bare]), rfl, rfl, rfl, rfl⟩

end Evaluate
end Reshape
