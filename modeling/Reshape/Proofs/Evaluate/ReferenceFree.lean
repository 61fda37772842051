import Reshape.Proofs.Reference.Free
import Reshape.Evaluate.Record
/-! Values without references. Interpolating them gives them back, whatever the context, and asks
the host for nothing. A field whose raw value is such a value is that value. -/
namespace Reshape

namespace Evaluate
variable {F : Type} (apply : Apply F) (c : Context F)

theorem interpolateStringFree {s : String} (free : Reference.Free s.toList) :
    interpolateString apply c s = pure (some (.string s)) := by
  simp only [interpolateString, Reference.findFree free]
  rfl

mutual

theorem interpolateUnreferenced {v : Value} (free : v.Unreferenced) :
    interpolate apply c v = pure (some v) :=
  match v with
  | .string s => interpolateStringFree apply c (free [] s .here)
  | .array items => by
    rw [interpolate, interpolateItemsUnreferenced free.item]
    rfl
  | .record fields => by
    rw [interpolate, interpolateFieldsUnreferenced free.field]
    rfl
  | .null | .bool _ | .number _ | .date _ | .projected _ => rfl

theorem interpolateItemsUnreferenced {items : List Value} (free : ∀ v ∈ items, v.Unreferenced) :
    interpolateItems apply c items = pure items :=
  match items with
  | [] => rfl
  | v :: rest => by
    obtain ⟨here, behind⟩ := List.forall_mem_cons.mp free
    rw [interpolateItems, interpolateUnreferenced here, interpolateItemsUnreferenced behind]
    rfl

theorem interpolateFieldsUnreferenced {fields : List (String × Value)}
    (free : ∀ f ∈ fields, f.2.Unreferenced) : interpolateFields apply c fields = pure fields :=
  match fields with
  | [] => rfl
  | f :: rest => by
    obtain ⟨here, behind⟩ := List.forall_mem_cons.mp free
    rw [interpolateFields, interpolateUnreferenced here, interpolateFieldsUnreferenced behind]
    rfl

end

theorem interpolateFree {v : Value} (free : v.ReferenceFree) :
    interpolate apply c v = pure (some v) :=
  interpolateUnreferenced apply c free.unreferenced

theorem dropNullNotNull {v : Option Value} (present : v ≠ some .null) : dropNull v = v := by
  rcases v with _ | v
  · rfl
  · cases v <;> first | rfl | exact absurd rfl present

theorem dropNullAgain (v : Option Value) : dropNull (dropNull v) = dropNull v := by
  rw [dropNull, dropNull, Option.filter_filter]
  simp only [Bool.and_self]

theorem truthyNotNull (v : Value) : (if v.isTruthy then some v else none) ≠ some .null := by
  intro null
  split at null
  · cases null
    contradiction
  · cases null

theorem refineFree {v : Value} (free : v.ReferenceFree) :
    refine apply [] c v = pure (dropNull v) := by
  unfold Evaluate.refine transform
  change (if v.isOutput then pure (some v) else _) = _
  split
  · cases v <;> first | rfl | contradiction
  · rw [interpolateFree apply c free]
    rfl

theorem fieldGiven {inv : Invocation F} {spec : Spec F} {raw : Option Value}
    (given : rawValue apply inv c spec = pure raw)
    (free : ∀ v, raw = some v → v.ReferenceFree) :
    field apply [] inv c spec = pure (dropNull raw) := by
  simp only [field, given, pure_bind]
  cases shown : dropNull raw with
  | none => rfl
  | some v =>
    obtain ⟨same, kept⟩ := Option.filter_eq_some_iff.mp shown
    have again : dropNull (some v) = some v := same ▸ shown
    dsimp only
    split
    · rfl
    · rw [refineFree apply c (free v same), again]

end Evaluate
end Reshape
