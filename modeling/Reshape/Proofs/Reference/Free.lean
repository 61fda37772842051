import Reshape.Proofs.Reference.Cut
import Reshape.Proofs.Value.Strings
/-! Text and values without references. Where no brace opens there is no reference. -/
namespace Reshape

def Reference.Free (cs : List Char) : Prop :=
  ∀ r, IsReference r → ¬ r <:+: cs

theorem Reference.findFree {cs : List Char} (free : Free cs) : find cs = [] := by
  obtain ⟨lead, pieces, cut⟩ := everyTextCut cs
  rw [findCut cut, List.map_eq_nil_iff]
  cases pieces with
  | nil => rfl
  | cons piece pieces =>
    have text := cut.text
    refine absurd ?_ (free piece.1 (cut.references piece List.mem_cons_self))
    refine ⟨lead, piece.2 ++ pieces.flatMap fun piece => piece.1 ++ piece.2, ?_⟩
    simpa [joined] using text

theorem Text.Bare.free {cs : List Char} (bare : Bare cs) : Reference.Free cs := by
  rintro r ⟨body, _, _, rfl⟩ inside
  exact bare.1 (inside.subset List.mem_cons_self)

namespace Value

def ReferenceFree (v : Value) : Prop :=
  ∀ s, v.HasString s → Reference.Free s.toList

def Unreferenced (v : Value) : Prop :=
  ∀ path s, Within (.string s) path v → Reference.Free s.toList

theorem ReferenceFree.unreferenced {v : Value} (free : v.ReferenceFree) : v.Unreferenced :=
  fun _ s inside => free s inside.hasString

theorem Unreferenced.item {items : List Value} (free : (array items).Unreferenced) :
    ∀ v ∈ items, v.Unreferenced := by
  intro v member path s inside
  obtain ⟨i, place⟩ := List.mem_iff_getElem?.mp member
  exact free _ s (.item place inside)

theorem Unreferenced.field {fields : List (String × Value)} (free : (record fields).Unreferenced) :
    ∀ f ∈ fields, f.2.Unreferenced :=
  fun _ member _ s inside => free _ s (.field member inside)

theorem Bare.referenceFree {v : Value} (bare : v.Bare) : v.ReferenceFree :=
  fun s inside => (bare s inside).free

end Value

end Reshape
