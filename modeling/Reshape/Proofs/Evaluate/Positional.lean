import Reshape.Proofs.Evaluate.Selection
import Reshape.Proofs.Value.Paths
/-! List projections read items in two ways: side by side with the slots, or slot by slot under the
decimal text of a position. Where nothing but selecting is done, it makes no difference in which way a
list is read, nor whether it is given as a list or as a record with the positions as names. -/
namespace Reshape
open Fallible
variable {F : Type}

namespace Select
variable (below : Select F)

theorem reducedCons {α : Type} (f : α → Except Error (Option Value)) (a : α) (rest : List α) :
    ((a :: rest).mapM f).map List.reduceOption =
      f a >>= fun here => ((rest.mapM f).map List.reduceOption).map (here.toList ++ ·) := by
  rw [List.mapM_cons]
  cases f a with
  | error e => rfl
  | ok here => cases rest.mapM f <;> cases here <;> rfl

theorem positionsPair {data : Value} {xs : List Value} {start : Nat}
    (reads : ∀ i : Nat, data.get? (toString (start + i)) = xs[i]?) (ps : List (Projection F)) :
    ((ps.zipIdx start).mapM (position below data)).map List.reduceOption =
      ((xs.zip ps).mapM fun (x, slot) => below slot x).map List.reduceOption := by
  induction ps generalizing xs start with
  | nil => rw [List.zip_nil_right]; rfl
  | cons p rest ih =>
    have here : position below data (p, start) = (xs[0]?).elim (.ok none) (below p) := by
      rw [← reads 0, Nat.add_zero]
      simp only [position]
      cases data.get? (toString start) <;> rfl
    have onward : ∀ i : Nat, data.get? (toString (start + 1 + i)) = xs.tail[i]? := fun i => by
      rw [List.getElem?_tail, Nat.add_assoc, Nat.add_comm 1, reads]
    rw [List.zipIdx_cons, reducedCons, here, ih onward]
    cases xs with
    | nil => rfl
    | cons x xs => rw [List.zip_cons_cons, reducedCons]; rfl

theorem eachWhole {data : Value} {xs : List Value} (reads : ∀ i : Nat, data.get? (toString i) = xs[i]?)
    (ps : List (Projection F)) : whole below data (.list ps) = each below xs (.list ps) := by
  have fromStart : ∀ i : Nat, data.get? (toString (0 + i)) = xs[i]? := fun i => by
    rw [Nat.zero_add, reads]
  have listed : ∀ read : Except Error (List (Option Value)),
      (do return .array (← read).reduceOption) = (read.map List.reduceOption).map Value.array := by
    intro read
    cases read <;> rfl
  rw [whole, each, listed, listed, positionsPair below fromStart]

end Select

namespace Evaluate

theorem evaluateLevel {engine : Engine F} {answers : Answers F} {inv : Invocation F} {global : Scope F}
    (resolves : answers.global inv.engine = .ok global) {data : Value}
    (same : readData engine.config data = .ok data) (truthy : data.isTruthy = true) :
    (evaluate (.single engine) inv data).eval answers =
      if engine.limit < inv.depth then .error (.recursionLimit inv.depth engine.limit)
      else ((level engine (evaluate (.single engine)) inv (baseContext inv global data) data).eval
        answers).map some := by
  rw [evaluateRecursive]
  change (step engine _ inv data).eval answers = _
  split
  · rename_i beyond
    rw [stepBeyond beyond, if_pos truthy]
    rfl
  · rename_i allowed
    rw [stepReads (Nat.not_lt.mp allowed) same truthy, readLevelEvaluates resolves truthy]

section Paths
variable {engine : Engine F} (plain : engine.transformers = []) {answers : Answers F}
  {inv : Invocation F} {ps : List (Projection F)} (listed : inv.projection = .list ps)
  (selective : inv.projection.Selective) {global : Scope F}
  (resolves : answers.global inv.engine = .ok global) {xs : List Value}
include plain listed selective resolves

theorem slotBySlotAgrees (bare : (Value.array xs).Bare) {data : Value} (bareData : data.Bare)
    (reads : ∀ i : Nat, data.get? (toString i) = xs[i]?) :
    (slots (evaluate (.single engine)) engine.transformers inv (baseContext inv global data) ps).eval
        answers =
      (items (evaluate (.single engine)) engine.config inv (baseContext inv global (.array xs)) xs).eval
        answers := by
  have pairs := itemsSelects (selectsBelow plain resolves (.array xs)) selective engine.config
    fun x member => bare.item member
  have bySlot := slotsSelects (selectsBelow plain resolves data) (listed ▸ selective) bareData
  rw [pairs, listed, plain, bySlot]
  exact Select.eachWhole _ reads ps

/- A position is read as a word of 64 bits, and lists in memory have no more items than that. -/
theorem pathsAgree (structured : ∀ x ∈ xs, x.isStructured = true) (bare : (Value.array xs).Bare) :
    let below := evaluate (.single engine)
    let positional := items below engine.config inv (baseContext inv global (.array xs)) xs
    let slotBySlot := fun data => slots below engine.transformers inv (baseContext inv global data) ps
    (xs.length ≤ Nat.pow 2 64 → (slotBySlot (.array xs)).eval answers = positional.eval answers) ∧
    (slotBySlot (.numbered xs)).eval answers = positional.eval answers ∧
    ∀ data ∈ [.array xs, .numbered xs], (below inv data).eval answers =
      if engine.limit < inv.depth then .error (.recursionLimit inv.depth engine.limit)
      else (positional.eval answers).map some := by
  intro below positional slotBySlot
  have record : (slotBySlot (.numbered xs)).eval answers = positional.eval answers :=
    slotBySlotAgrees plain listed selective resolves bare (Value.numberedBare bare)
      (Value.recordPosition xs)
  refine ⟨fun countable => ?_, record, ?_⟩
  · exact slotBySlotAgrees plain listed selective resolves bare bare (Value.arrayPosition countable)
  · have together : level engine below inv (baseContext inv global (.array xs)) (.array xs) =
        positional := by
      simp [level, itemwise?, Value.items?, List.all_eq_true.mpr structured, positional]
    have apart : level engine below inv (baseContext inv global (.numbered xs)) (.numbered xs) =
        slotBySlot (.numbered xs) := by
      rw [level, listed]
      rfl
    simp only [List.forall_mem_cons]
    refine ⟨?_, ?_, List.forall_mem_nil _⟩
    · rw [evaluateLevel resolves rfl rfl, together]
    · rw [evaluateLevel resolves rfl rfl, apart, record]

end Paths

def lanes : Projector Unit where
  projection := .list [.list [.object [("a", .passthrough)] []], .object [("b", .typed .string)] [],
    .object [] []]
  context := none
  engine := 0

def laneItems : List Value :=
  [.array [.record [("a", .ofNat 1)], .record []], .record [("b", .string "x")]]

def laneOutput : Value :=
  .array [.array [.projected [("a", .ofNat 1)]], .projected [("b", .string "x")]]

theorem lanesSelective : lanes.projection.Selective where
  plain := by
    refine .list fun p member => ?_
    simp only [List.mem_cons, List.not_mem_nil, or_false] at member
    have objects : ∀ {key : String} {spec : Spec Unit}, spec.Plain →
        (Projection.object [(key, spec)] []).Plain := fun plain =>
      .object (List.nodup_singleton _) (List.forall_mem_singleton.mpr plain) (List.forall_mem_nil _)
    obtain rfl | rfl | rfl := member
    · exact .list (List.forall_mem_singleton.mpr (objects .passthrough))
    · exact objects (.typed .string)
    · exact .object List.nodup_nil (List.forall_mem_nil _) (List.forall_mem_nil _)
  literals v literal := by
    simp [lanes, Projection.listHasLiteral, Projection.objectHasLiteral] at literal

theorem lanesAgree :
    let top := lanes.invocation none none
    (∀ x ∈ laneItems, x.isStructured = true) ∧ (Value.array laneItems).Bare ∧
    ∀ data ∈ [.array laneItems, .numbered laneItems],
      (evaluate (.single {}) top data).eval failing = .ok (some laneOutput) := by
  intro top
  have structured : ∀ x ∈ laneItems, x.isStructured = true := by decide
  have bare : (Value.array laneItems).Bare := by
    intro s inside
    obtain rfl : s = "x" := by simpa [laneItems, Value.ofNat] using inside
    simp [Text.Bare]
  have plain : ({} : Engine Unit).transformers = [] := rfl
  have resolves : failing.global top.engine = .ok [("buyer", .value (.string "global"))] := rfl
  obtain ⟨_, _, agree⟩ := pathsAgree plain rfl lanesSelective resolves structured bare
  exact ⟨structured, bare, fun data member => (agree data member).trans rfl⟩

end Evaluate
end Reshape
