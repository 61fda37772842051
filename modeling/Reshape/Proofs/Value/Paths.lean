import Reshape.Proofs.Text.Digits
import Reshape.Proofs.Text.Pieces
import Reshape.Proofs.Value.Strings
/-! Paths and positions as text. The segments of two paths with a dot between them are those of the
first and then those of the second. The decimal text of a position finds the item there, as far as a
word of 64 bits counts, and no other position has that text; a record that names its values by their
positions finds them under the same names. -/
namespace Reshape.Value

def dotted (names : List String) : String :=
  ".".intercalate names

theorem segmentsApart (path further : String) :
    segments (path ++ "." ++ further) = segments path ++ segments further := by
  have cut : (path ++ "." ++ further).toList = path.toList ++ '.' :: further.toList := by
    simp [String.toList_append]
  rw [segments, cut, Text.splitAtApart, List.map_append]
  rfl

theorem segmentsPlain {name : String} (plain : '.' ∉ name.toList) : segments name = [name] := by
  rw [segments, Text.splitAtWhole plain, List.map_singleton, String.ofList_toList]

theorem segmentsDotted {names : List String} (plain : ∀ name ∈ names, '.' ∉ name.toList)
    (last : String) : segments (dotted (names ++ [last])) = names ++ segments last := by
  induction names with
  | nil => rw [List.nil_append, dotted, String.intercalate_singleton, List.nil_append]
  | cons name rest ih =>
    obtain ⟨here, behind⟩ := List.forall_mem_cons.mp plain
    obtain ⟨second, others, more⟩ : ∃ second others, rest ++ [last] = second :: others :=
      List.exists_cons_of_ne_nil (by simp)
    have behind := ih behind
    rw [more] at behind
    rw [List.cons_append, more, dotted, String.intercalate_cons_cons, segmentsApart,
      segmentsPlain here, List.singleton_append, ← dotted, behind, List.cons_append]

theorem positionDigits {ds : List Char} (some : ds ≠ []) (digits : ∀ c ∈ ds, Text.isDigit c = true) :
    position? (String.ofList ds) =
      if Text.naturalOf ds < Nat.pow 2 64 then .some (Text.naturalOf ds) else none := by
  cases ds with
  | nil => exact absurd rfl some
  | cons c rest =>
    have unsigned : c ≠ '+' := fun same => by
      have plus := digits c List.mem_cons_self
      rw [same] at plus
      cases plus
    have all : (c :: rest).all Text.isDigit = true := List.all_eq_true.mpr digits
    simp only [position?, String.toList_ofList]
    split
    · rename_i same
      exact absurd (List.cons.inj same).1 unsigned
    · rw [all]
      rfl

theorem positionText (i : Nat) :
    position? (toString i) = if i < Nat.pow 2 64 then some i else none := by
  rw [Nat.toString_eq_ofList_toDigits,
    positionDigits (Text.digitsNotEmpty i) fun c member => Text.digitsAreDigits member,
    Text.naturalOfDigits]

theorem positionName {i j : Nat} : toString i = toString j ↔ i = j := by
  refine ⟨fun same => ?_, congrArg toString⟩
  have texts : Nat.toDigits 10 i = Nat.toDigits 10 j := by
    rw [← Nat.toList_repr, ← Nat.toList_repr]
    exact congrArg String.toList same
  rw [← Text.naturalOfDigits i, texts, Text.naturalOfDigits]

theorem arrayPosition {xs : List Value} (countable : xs.length ≤ Nat.pow 2 64) (i : Nat) :
    (array xs).get? (toString i) = xs[i]? := by
  rw [get?, positionText]
  split
  · rfl
  · rename_i beyond
    exact (List.getElem?_eq_none (by omega)).symm

def numberedFrom (start : Nat) (xs : List Value) : List (String × Value) :=
  (xs.zipIdx start).map fun (x, i) => (toString i, x)

theorem numberedPosition (start : Nat) (xs : List Value) (i : Nat) :
    Entries.get? (numberedFrom start xs) (toString (start + i)) = xs[i]? := by
  induction xs generalizing start i with
  | nil => rfl
  | cons x rest ih =>
    change Entries.get? ((toString start, x) :: numberedFrom (start + 1) rest) _ = _
    rw [Entries.get?]
    cases i with
    | zero => exact if_pos rfl
    | succ i =>
      have other : toString start ≠ toString (start + (i + 1)) := fun same => by
        have := positionName.mp same
        omega
      have behind := ih (start + 1) i
      rw [Nat.add_right_comm] at behind
      rw [if_neg other, List.getElem?_cons_succ]
      exact behind

def numbered (xs : List Value) : Value :=
  .record (numberedFrom 0 xs)

theorem recordPosition (xs : List Value) (i : Nat) : (numbered xs).get? (toString i) = xs[i]? := by
  have found := numberedPosition 0 xs i
  rw [Nat.zero_add] at found
  exact found

theorem numberedBare {xs : List Value} (bare : (array xs).Bare) : (numbered xs).Bare := by
  intro s inside
  obtain ⟨f, member, inside⟩ := recordHasString.mp inside
  obtain ⟨place, stands, rfl⟩ := List.mem_map.mp member
  exact bare.item (List.fst_mem_of_mem_zipIdx stands) s inside

end Reshape.Value
