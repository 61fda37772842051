import Reshape.Proofs.Evaluate.Output
import Reshape.Proofs.Run.Ends
import Reshape.Proofs.Value.Output
/-! What lists come to. A structured item that is evaluated is never absent, whatever its projection
and the host, so nothing is dropped from the results of a list: each stands at the place of its item
among the items that are evaluated, and each item is told its place in the data. -/
namespace Reshape
variable {F σ : Type}

theorem Run.InTurn.given {α : Type} {engines : Engines F} {host : Host F σ} {jobs : List (Run F α)}
    {before after : Session F σ} {results : List α} {wanted : α → Prop}
    (turns : InTurn engines host jobs before results after)
    (each : ∀ job ∈ jobs, Evaluate.Gives wanted job) : ∀ r ∈ results, wanted r := by
  induction turns with
  | nil => exact List.forall_mem_nil _
  | @cons job rest before middle after a results first _ ih =>
    obtain ⟨here, behind⟩ := List.forall_mem_cons.mp each
    have came : ((job.exec engines host).run.run before).1 = .ok a := congrArg Prod.fst first
    exact List.forall_mem_cons.mpr ⟨here.exec (host.withinAny engines) trivial came, ih behind⟩

namespace Evaluate

theorem readTruthy {config : Config} {data read : Value} (found : readData config data = .ok read)
    (truthy : read.isTruthy = true) : data.isTruthy = true := by
  cases data with
  | string text =>
    by_contra falsy
    obtain rfl : text = "" := by simpa [Value.isTruthy] using falsy
    unfold readData at found
    cases parses : config.parseStrings with
    | true =>
      rw [parses] at found
      cases found
    | false =>
      rw [parses] at found
      cases found
      cases truthy
  | _ =>
    cases found
    exact truthy

def Given (result : Option Value) : Prop :=
  ∃ v, result = some v ∧ v.Output

theorem readLevelGives {engine : Engine F} {apply : Apply F} {inv : Invocation F}
    (below : ∀ child data, Gives Outputs (apply child data)) {read : Value}
    (truthy : read.isTruthy = true) : Gives Given (readLevel engine apply inv read) := by
  rw [readLevel, if_pos truthy]
  refine Gives.behind _ fun global => ?_
  exact Gives.sequence (levelGives below read) fun v output => ⟨v, rfl, output⟩

theorem structuredRead (config : Config) {v : Value} (structured : v.isStructured = true) :
    readData config v = .ok v := by
  cases v <;> first | rfl | cases structured

theorem structuredGiven (engines : Engines F) (inv : Invocation F) {data : Value}
    (structured : data.isStructured = true) : Gives Given (evaluate engines inv data) := by
  have truthy := Value.structuredTruthy structured
  have below : ∀ child data, Gives Outputs (evaluate engines child data) :=
    withinGives engines (engines.ceiling + 1)
  rw [evaluateRecursive]
  rcases Nat.lt_or_ge (engines.get inv.engine).limit inv.depth with beyond | allowed
  · rw [stepBeyond beyond, if_pos truthy]
    exact trivial
  · rw [stepReads allowed (structuredRead _ structured) truthy]
    exact readLevelGives below truthy

theorem presentAll {results : List (Option Value)} (each : ∀ r ∈ results, Given r) :
    (present results).map some = results := by
  induction results with
  | nil => rfl
  | cons r rest ih =>
    obtain ⟨⟨v, rfl, output⟩, behind⟩ := List.forall_mem_cons.mp each
    rw [present, List.filterMap_cons_some (dropNullOutput output), List.map_cons, ← present,
      ih behind]

section Level
variable {engines : Engines F} {host : Host F σ} {inv : Invocation F} {data : Value}
  {before after : Session F σ}

theorem gatheredItems {jobs : List (Run F (Option Value))} {listed : Value}
    (each : ∀ job ∈ jobs, Gives Given job)
    (ended : (do return Value.array (present (← Run.gather jobs)) : Run F Value).Ends engines host
      before (.ok listed) after) :
    ∃ values, listed = .array values ∧
      Run.InTurn engines host jobs before (values.map some) after := by
  obtain ⟨results, middle, turns, last⟩ := Run.endsThen.mp ended
  obtain ⟨same, rfl⟩ := Run.endsPure.mp last
  cases same
  have turns := Run.endsGather.mp turns
  refine ⟨present results, rfl, ?_⟩
  rw [presentAll (turns.given each)]
  exact turns

theorem evaluateEnds {read : Value} (found : readData (engines.get inv.engine).config data = .ok read)
    (truthy : read.isTruthy = true) {result : Option Value}
    (ended : (evaluate engines inv data).Ends engines host before (.ok result) after) :
    ∃ global supplied v, (Run.globalScope inv.engine).Ends engines host before (.ok global) supplied ∧
      (level (engines.get inv.engine) (evaluate engines) inv (baseContext inv global read) read).Ends
        engines host supplied (.ok v) after ∧ result = some v := by
  have given := readTruthy found truthy
  rw [evaluateRecursive] at ended
  rcases Nat.lt_or_ge (engines.get inv.engine).limit inv.depth with beyond | allowed
  · rw [stepBeyond beyond, if_pos given] at ended
    cases ended
  · rw [stepReads allowed found given, readLevel, if_pos truthy] at ended
    obtain ⟨global, supplied, first, ended⟩ := Run.endsThen.mp ended
    obtain ⟨v, last, levels, ended⟩ := Run.endsThen.mp ended
    obtain ⟨same, rfl⟩ := Run.endsPure.mp ended
    cases same
    exact ⟨global, supplied, v, first, levels, rfl⟩

end Level

section Lists
variable {engines : Engines F} {host : Host F σ} {inv : Invocation F} {base : Context F}
  {xs : List Value} {before after : Session F σ} {listed : Value}

theorem broadcastEnds
    (ended : (do return Value.array (present (← Run.gather (broadcast (evaluate engines) inv base xs))) :
      Run F Value).Ends engines host before (.ok listed) after) :
    ∃ values, listed = .array values ∧ values.length = (xs.filter Value.isStructured).length ∧
      Run.InTurn engines host ((xs.zipIdx.filter (·.1.isStructured)).map fun (item, index) =>
        evaluate engines (inv.nested inv.projection (base.atKey (.index index))) item)
        before (values.map some) after := by
  have each : ∀ job ∈ broadcast (evaluate engines) inv base xs, Gives Given job := by
    intro job member
    obtain ⟨place, inside, rfl⟩ := List.mem_map.mp member
    exact structuredGiven engines _ (List.mem_filter.mp inside).2
  obtain ⟨values, rfl, turns⟩ := gatheredItems each ended
  refine ⟨values, rfl, ?_, turns⟩
  have length := turns.length
  rwa [List.length_map, broadcast, List.length_map, ← List.length_map Prod.fst,
    Value.structuredPlaces] at length

theorem pairedEnds {slots : List (Projection F)} (structured : ∀ x ∈ xs, x.isStructured = true)
    (ended : (do return Value.array (present (← Run.gather (paired (evaluate engines) inv base xs slots))) :
      Run F Value).Ends engines host before (.ok listed) after) :
    ∃ values, listed = .array values ∧ values.length = min xs.length slots.length ∧
      Run.InTurn engines host ((xs.zip slots).zipIdx.map fun ((item, slot), index) =>
        evaluate engines (inv.nested slot (base.atKey (.index index))) item)
        before (values.map some) after := by
  have each : ∀ job ∈ paired (evaluate engines) inv base xs slots, Gives Given job := by
    intro job member
    obtain ⟨place, inside, rfl⟩ := List.mem_map.mp member
    have item := (List.of_mem_zip (List.fst_mem_of_mem_zipIdx inside)).1
    exact structuredGiven engines _ (structured _ item)
  obtain ⟨values, rfl, turns⟩ := gatheredItems each ended
  refine ⟨values, rfl, ?_, turns⟩
  have length := turns.length
  rwa [List.length_map, paired, List.length_map, List.length_zipIdx, List.length_zip] at length

theorem warnedEnds {warns : Prop} [Decidable warns] {text : String} {r : Run F Value} {v : Value}
    (ended : (if warns then Run.warning text >>= fun _ => r else r).Ends engines host before (.ok v) after) :
    ∃ started, started = { before with warnings := started.warnings } ∧
      r.Ends engines host started (.ok v) after := by
  split at ended
  · obtain ⟨_, started, warned, ended⟩ := Run.endsThen.mp ended
    cases warned
    exact ⟨_, rfl, ended⟩
  · exact ⟨before, rfl, ended⟩

end Lists

/- How many results there are, and of what each is the result: the structured items with their places
in the data, or items and slots side by side. Between the global scope and the items a list may only
be warned about. -/
theorem itemsKeptInPlace (engines : Engines F) {inv : Invocation F} {data : Value} {xs : List Value}
    (found : readData (engines.get inv.engine).config data = .ok (.array xs))
    (itemwise : itemwise? inv.projection (.array xs) = some xs) (host : Host F σ)
    {before after : Session F σ} {result : Option Value}
    (ended : (evaluate engines inv data).Ends engines host before (.ok result) after) :
    ∃ global supplied started values,
      (Run.globalScope inv.engine).Ends engines host before (.ok global) supplied ∧
      started = { supplied with warnings := started.warnings } ∧
      result = some (.array values) ∧
      let base := baseContext inv global (.array xs)
      (∀ fields directives, inv.projection = .object fields directives →
        values.length = (xs.filter Value.isStructured).length ∧
        Run.InTurn engines host ((xs.zipIdx.filter (·.1.isStructured)).map fun (item, index) =>
          evaluate engines (inv.nested inv.projection (base.atKey (.index index))) item)
          started (values.map some) after) ∧
      (∀ slots, inv.projection = .list slots →
        values.length = min xs.length slots.length ∧
        Run.InTurn engines host ((xs.zip slots).zipIdx.map fun ((item, slot), index) =>
          evaluate engines (inv.nested slot (base.atKey (.index index))) item)
          started (values.map some) after) := by
  obtain ⟨global, supplied, v, first, levels, rfl⟩ := evaluateEnds found rfl ended
  rw [level, itemwise] at levels
  dsimp only [items] at levels
  cases shown : inv.projection with
  | object fields directives =>
    simp only [shown] at levels
    obtain ⟨values, rfl, length, turns⟩ := broadcastEnds levels
    rw [shown] at turns
    refine ⟨global, supplied, supplied, values, first, rfl, rfl, fun _ _ _ => ⟨length, turns⟩, ?_⟩
    intro _ other
    cases other
  | list slots =>
    have structured : ∀ x ∈ xs, x.isStructured = true := by
      simpa [itemwise?, Value.items?, shown, Projection.isArray] using itemwise
    simp only [shown] at levels
    obtain ⟨started, same, levels⟩ := warnedEnds levels
    obtain ⟨values, rfl, length, turns⟩ := pairedEnds structured levels
    refine ⟨global, supplied, started, values, first, same, rfl, fun _ _ other => ?_, ?_⟩
    · cases other
    · rintro _ ⟨⟩
      exact ⟨length, turns⟩

def countedRows : Projector Unit := ⟨.object [("n", .function (.direct ()))] [.array], none, 0⟩

def numbering : Host Unit Nat where
  call _ _ n := (.ok (.value (.ofNat n)), n + 1)
  supply _ n := (.ok [], n)

def mixedRows : List Value := [.ofNat 7, .record [], .null, .array [.record []]]

def counted (n : Nat) : Value :=
  .projected [("n", .ofNat n)]

theorem mixedRowsKept :
    let top := countedRows.invocation none none
    let row := fun global index => evaluate (.single {})
      (top.nested top.projection ((baseContext top global (.array mixedRows)).atKey (.index index)))
    readData {} (.array mixedRows) = .ok (.array mixedRows) ∧
    itemwise? countedRows.projection (.array mixedRows) = some mixedRows ∧
    (evaluate (.single {}) top (.array mixedRows)).Ends (.single {}) numbering { state := 5 }
      (.ok (some (.array [counted 5, .array [counted 6]]))) { state := 7 } ∧
    ∃ global started, Run.InTurn (.single {}) numbering
      [row global 1 (.record []), row global 3 (.array [.record []])] started
      [some (counted 5), some (.array [counted 6])] { state := 7 } := by
  intro top row
  have itemwise : itemwise? top.projection (.array mixedRows) = some mixedRows := rfl
  have ended : (evaluate (.single {}) top (.array mixedRows)).Ends (.single {}) numbering { state := 5 }
      (.ok (some (.array [counted 5, .array [counted 6]]))) { state := 7 } := rfl
  obtain ⟨global, _, started, _, _, _, same, object, _⟩ :=
    itemsKeptInPlace (.single {}) rfl itemwise numbering ended
  cases same
  exact ⟨rfl, itemwise, ended, global, started, (object _ _ rfl).2⟩

end Evaluate
end Reshape
