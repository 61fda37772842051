import Reshape.Proofs.Evaluate.Items
import Reshape.Proofs.Overwriting
/-! How records are put together. Their entries come in one sequence: those of the fields that are there
and then those that the directives bring, all in the order of declaration. Each condition that holds
brings its own and stops none behind it. A key stands where it came first, with the value that came
last. -/
namespace Reshape
variable {F σ : Type}

namespace Evaluate

def contributed : Option Value → Entries Value
  | some (.record fields) | some (.projected fields) => fields
  | _ => []

def ownEntries (fields : List (String × Spec F)) (values : List (Option Value)) : Entries Value :=
  (fields.zip values).filterMap fun (f, v) => v.map (f.1, ·)

section Results
variable (apply : Apply F) (inv : Invocation F) (c : Context F)

def produced : Computed F → Run F (Option Value)
  | .value v => .pure (some v)
  | .absent | .inherit => .pure none
  | .apply p => p.applyIn apply c.data inv.instanceScope c

def functionResult (fn : ContextFn F) : Run F (Option Value) := do
  produced apply inv c (← fn.run .function c)

def sourceResult : Source F → Run F (Option Value)
  | .project p => p.applyIn apply c.data inv.instanceScope c
  | .inline p => apply (inv.nested p c) c.data
  | .compute fn => functionResult apply inv c fn

def conditionResult (item : Condition F) : Run F (Option Value) := do
  if ← item.predicate.test .predicate c then sourceResult apply inv c item.source else return none

def directiveResults (base : Context F) (d : Directive F) : List (Run F (Option Value)) :=
  let c := base.atKey (.field d.key)
  match d with
  | .array => []
  | .conditions items => items.map (conditionResult apply inv c)
  | .combine _ fn => [functionResult apply inv c fn]

theorem entriesContributed (result : Option Value) : entriesOf result = contributed result := by
  rcases result with _ | v
  · rfl
  · cases v <;> rfl

theorem truthyEntries (v : Value) :
    (if v.isTruthy then v.entries else []) = contributed (some v) := by
  rw [← entriesContributed]
  split
  · rfl
  · cases v <;> first | rfl | contradiction

theorem functionContributes (fn : ContextFn F) :
    functionEntries apply inv c fn =
      functionResult apply inv c fn >>= fun result => pure (contributed result) := by
  rw [functionEntries, functionResult, bind_assoc]
  refine bind_congr fun computed => ?_
  cases computed with
  | value v => exact congrArg Run.pure (truthyEntries v)
  | absent => rfl
  | inherit => rfl
  | apply p =>
    refine bind_congr fun result => ?_
    cases result with
    | none => rfl
    | some v => exact congrArg Run.pure (truthyEntries v)

theorem sourceContributes (source : Source F) :
    sourceEntries apply inv c source =
      sourceResult apply inv c source >>= fun result => pure (contributed result) := by
  have shown : ∀ r : Run F (Option Value), (r >>= fun result => pure (entriesOf result)) =
      r >>= fun result => pure (contributed result) := fun r =>
    bind_congr fun result => congrArg pure (entriesContributed result)
  cases source with
  | project p => exact shown _
  | inline p => exact shown _
  | compute fn => exact functionContributes apply inv c fn

theorem conditionContributes (item : Condition F) :
    conditionEntries apply inv c item =
      conditionResult apply inv c item >>= fun result => pure (contributed result) := by
  rw [conditionEntries, conditionResult, bind_assoc]
  refine bind_congr fun holds => ?_
  cases holds with
  | false => rfl
  | true => exact sourceContributes apply inv c item.source

end Results

section Contributions
variable {apply : Apply F} {inv : Invocation F} {base : Context F} {engines : Engines F}
  {host : Host F σ} {before after : Session F σ}

theorem directiveContributes {d : Directive F} {entries : Entries Value}
    (ended : (directiveEntries apply inv base d).Ends engines host before (.ok entries) after) :
    ∃ results, entries = results.flatMap contributed ∧
      Run.InTurn engines host (directiveResults apply inv base d) before results after := by
  cases d with
  | array =>
    obtain ⟨same, rfl⟩ := Run.endsPure.mp ended
    cases same
    exact ⟨[], rfl, .nil⟩
  | conditions items =>
    obtain ⟨parts, middle, gathered, last⟩ := Run.endsThen.mp ended
    obtain ⟨same, rfl⟩ := Run.endsPure.mp last
    cases same
    have turns := Run.endsGather.mp gathered
    rw [List.map_congr_left fun item _ => conditionContributes apply inv _ item] at turns
    obtain ⟨results, rfl, resulting⟩ := turns.worked
    exact ⟨results, List.flatMap_def.symm, resulting⟩
  | combine suffix fn =>
    change (functionEntries apply inv _ fn).Ends engines host before (.ok entries) after at ended
    rw [functionContributes] at ended
    obtain ⟨result, middle, first, last⟩ := Run.endsThen.mp ended
    obtain ⟨same, rfl⟩ := Run.endsPure.mp last
    cases same
    exact ⟨[result], by simp, .cons first .nil⟩

theorem directivesContribute {directives : List (Directive F)} {parts : List (Entries Value)}
    (turns : Run.InTurn engines host (directives.map (directiveEntries apply inv base)) before
      parts after) :
    ∃ results, parts.flatten = results.flatMap contributed ∧
      Run.InTurn engines host (directives.flatMap (directiveResults apply inv base)) before
        results after := by
  induction directives generalizing before parts with
  | nil =>
    cases turns
    exact ⟨[], rfl, .nil⟩
  | cons d rest ih =>
    obtain _ | ⟨first, behind⟩ := turns
    obtain ⟨own, rfl, here⟩ := directiveContributes first
    obtain ⟨others, same, onward⟩ := ih behind
    refine ⟨own ++ others, ?_, here.append onward⟩
    rw [List.flatten_cons, List.flatMap_append, same]

theorem fieldContributes (ts : List (Transformer F)) (f : String × Spec F) :
    fieldEntries apply ts inv base f =
      field apply ts inv (base.atKey (.field f.1)) f.2 >>= fun v => pure (v.map (f.1, ·)).toList := by
  refine bind_congr fun v => ?_
  cases v <;> rfl

theorem fieldsContribute {ts : List (Transformer F)} {fields : List (String × Spec F)}
    {parts : List (Entries Value)}
    (turns : Run.InTurn engines host (fields.map (fieldEntries apply ts inv base)) before
      parts after) :
    ∃ values, parts.flatten = ownEntries fields values ∧
      Run.InTurn engines host
        (fields.map fun f => field apply ts inv (base.atKey (.field f.1)) f.2) before values after := by
  induction fields generalizing before parts with
  | nil =>
    cases turns
    exact ⟨[], rfl, .nil⟩
  | cons f rest ih =>
    obtain _ | ⟨first, behind⟩ := turns
    rw [fieldContributes] at first
    obtain ⟨v, middle, here, last⟩ := Run.endsThen.mp first
    obtain ⟨entry, rfl⟩ := Run.endsPure.mp last
    cases entry
    obtain ⟨values, same, onward⟩ := ih behind
    refine ⟨v :: values, ?_, .cons here onward⟩
    rw [List.flatten_cons, same]
    cases v <;> rfl

end Contributions

/- Every field and every condition is asked in its turn, and an answer is at its own place. What has no
entries leaves no trace in the sequence. -/
theorem assembledInOrder (engines : Engines F) {inv : Invocation F} {data read : Value}
    {fields : List (String × Spec F)} {directives : List (Directive F)}
    (object : inv.projection = .object fields directives)
    (found : readData (engines.get inv.engine).config data = .ok read) (truthy : read.isTruthy = true)
    (single : itemwise? inv.projection read = none) (host : Host F σ) {before after : Session F σ}
    {result : Option Value}
    (ended : (evaluate engines inv data).Ends engines host before (.ok result) after) :
    ∃ global supplied middle values results out,
      (Run.globalScope inv.engine).Ends engines host before (.ok global) supplied ∧
      let base := baseContext inv global read
      let transformers := (engines.get inv.engine).transformers
      let sequence := ownEntries fields values ++ results.flatMap contributed
      Run.InTurn engines host (fields.map fun f =>
        field (evaluate engines) transformers inv (base.atKey (.field f.1)) f.2)
        supplied values middle ∧
      Run.InTurn engines host (directives.flatMap (directiveResults (evaluate engines) inv base))
        middle results after ∧
      result = some (.projected out) ∧ Entries.keys out = (Entries.keys sequence).eraseDups ∧
      ∀ key, Entries.get? out key = Entries.get? sequence.reverse key := by
  obtain ⟨global, supplied, v, first, levels, rfl⟩ := evaluateEnds found truthy ended
  rw [level, single] at levels
  simp only [object] at levels
  obtain ⟨parts, left, gathered, last⟩ := Run.endsThen.mp levels
  obtain ⟨same, rfl⟩ := Run.endsPure.mp last
  cases same
  obtain ⟨own, brought, middle, rfl, ownTurns, turns⟩ := (Run.endsGather.mp gathered).split
  obtain ⟨values, valued, ownTurns⟩ := fieldsContribute ownTurns
  obtain ⟨results, entered, turns⟩ := directivesContribute turns
  refine ⟨global, supplied, middle, values, results, _, first, ownTurns, turns, rfl, ?_, fun key => ?_⟩
  · rw [Entries.keysOfList, List.flatten_append, valued, entered]
  · rw [Entries.get?OfList, List.flatten_append, valued, entered]

def rewritten : List (Condition Unit) :=
  [⟨.always true, .inline (.object [("n", .passthrough), ("a", .literal (.bool true))] [])⟩,
    ⟨.always false, .compute (.direct ())⟩, ⟨.always true, .compute (.direct ())⟩]

def rewriting : Projector Unit where
  projection := .object [("a", .passthrough), ("gone", .passthrough), ("b", .passthrough)]
    [.conditions rewritten, .combine none (.direct ())]
  context := none
  engine := 0

def onceRecord : Host Unit Bool where
  call _ _ asked :=
    match asked with
    | false => (.ok (.value (.record [("b", .bool false), ("gone", .bool false)])), true)
    | true => (.ok (.value (.array [.record [("b", .null)]])), true)
  supply _ asked := (.ok [], asked)

def unwritten : Value := .record [("a", .ofNat 1), ("b", .ofNat 2), ("n", .ofNat 3)]

def written : List (String × Value) :=
  [("a", .bool true), ("b", .bool false), ("n", .ofNat 3), ("gone", .bool false)]

theorem rewritingAssembled :
    let top := rewriting.invocation none none
    readData {} unwritten = .ok unwritten ∧ itemwise? top.projection unwritten = none ∧
    (evaluate (.single {}) top unwritten).Ends (.single {}) onceRecord { state := false }
      (.ok (some (.projected written))) { state := true } ∧
    ∃ (values results : List (Option Value)), values.length = 3 ∧ results.length = 4 ∧
      let sequence := ownEntries [("a", (.passthrough : Spec Unit)), ("gone", .passthrough),
        ("b", .passthrough)] values ++ results.flatMap contributed
      Entries.keys written = (Entries.keys sequence).eraseDups ∧
      ∀ key, Entries.get? written key = Entries.get? sequence.reverse key := by
  intro top
  have ended : (evaluate (.single {}) top unwritten).Ends (.single {}) onceRecord { state := false }
      (.ok (some (.projected written))) { state := true } := rfl
  have single : itemwise? top.projection unwritten = none := rfl
  obtain ⟨global, supplied, middle, values, results, out, _, own, turns, same, keys, last⟩ :=
    assembledInOrder (.single {}) rfl rfl rfl single onceRecord ended
  cases same
  exact ⟨rfl, single, ended, values, results, own.length, turns.length, keys, last⟩

end Evaluate
end Reshape
