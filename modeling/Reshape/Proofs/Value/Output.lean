import Mathlib.Data.List.Basic
import Reshape.Value.Basic
/-! Values that only projections build: projected records, and lists of such values down to any
depth. They differ from what the engine takes for output in the empty lists only. They are all
structured: values that a list is evaluated for, item by item. -/
namespace Reshape.Value

inductive Output : Value → Prop where
  | projected (fields : List (String × Value)) : Output (.projected fields)
  | array {items : List Value} (each : ∀ v ∈ items, Output v) : Output (.array items)

inductive Listed (w : Value) : Value → Prop where
  | here : Listed w w
  | item {items : List Value} {v : Value} (member : v ∈ items) (inside : Listed w v) :
      Listed w (.array items)

theorem Output.listed {v w : Value} (output : v.Output) (inside : w.Listed v) : w.Output := by
  induction inside with
  | here => exact output
  | item member _ ih =>
    obtain _ | each := output
    exact ih (each _ member)

theorem Output.isTruthy {v : Value} (output : v.Output) : v.isTruthy = true := by
  cases output <;> rfl

theorem Output.isNull {v : Value} (output : v.Output) : v.isNull = false := by
  cases output <;> rfl

theorem allOutputAll (items : List Value) : allOutput items = items.all isOutput := by
  induction items with
  | nil => rfl
  | cons v rest ih => rw [allOutput, List.all_cons, ih]

theorem isOutputArray (items : List Value) :
    isOutput (.array items) = (!items.isEmpty && items.all isOutput) := by
  cases items with
  | nil => rfl
  | cons v rest => rw [isOutput, allOutputAll]; rfl

theorem Output.notTaken {v : Value} (output : v.Output) :
    v.isOutput = false ↔ Listed (.array []) v := by
  induction output with
  | projected fields =>
    constructor
    · intro no
      cases no
    · intro inside
      cases inside
  | @array items each ih =>
    rw [isOutputArray, Bool.and_eq_false_iff, Bool.not_eq_false', List.isEmpty_iff, List.all_eq_false]
    constructor
    · rintro (rfl | ⟨v, member, no⟩)
      · exact .here
      · exact .item member ((ih v member).mp (by simpa using no))
    · intro inside
      cases inside with
      | here => exact .inl rfl
      | item member inside => exact .inr ⟨_, member, by simpa using (ih _ member).mpr inside⟩

theorem structuredTruthy {v : Value} (structured : v.isStructured = true) : v.isTruthy = true := by
  cases v <;> first | rfl | cases structured

theorem Output.isStructured {v : Value} (output : v.Output) : v.isStructured = true := by
  cases output <;> rfl

theorem structuredPlaces (xs : List Value) :
    (xs.zipIdx.filter (·.1.isStructured)).map Prod.fst = xs.filter isStructured := by
  conv_rhs => rw [← List.zipIdx_map_fst 0 xs, List.filter_map]
  rfl

end Reshape.Value
