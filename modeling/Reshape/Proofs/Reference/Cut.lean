import Mathlib.Data.List.Infix
import Reshape.Proofs.Text.Padding
import Reshape.Reference.Basic
/-! Where references stand in a text, said without the scan that finds them. A cut is the text in
pieces: what stands before the first reference, then each reference with what stands behind it. No
reference starts inside the text between, so the references are the leftmost ones and do not
overlap. Every text has a cut and the scan finds its references. -/
namespace Reshape.Reference

def IsReference (r : List Char) : Prop :=
  ∃ body, body ≠ [] ∧ '\x7d' ∉ body ∧ r = '\x7b' :: '\x7b' :: body ++ ['\x7d', '\x7d']

/- No reference starts in the gap, also none that ends behind it. -/
def Unreferenced (gap rest : List Char) : Prop :=
  ∀ front back r, gap = front ++ back → back ≠ [] → IsReference r → ¬ r <+: back ++ rest

inductive Cut : List Char → List Char → List (List Char × List Char) → Prop where
  | last {gap} (none : Unreferenced gap []) : Cut gap gap []
  | next {gap r text lead pieces} (none : Unreferenced gap (r ++ text)) (reference : IsReference r)
      (rest : Cut text lead pieces) : Cut (gap ++ r ++ text) gap ((r, lead) :: pieces)

theorem IsReference.nonempty {r : List Char} (reference : IsReference r) : r ≠ [] := by
  obtain ⟨body, _, _, rfl⟩ := reference
  exact List.cons_ne_nil _ _

theorem atFrontReference {text r : List Char} :
    atFront? text = some r ↔ IsReference r ∧ r <+: text := by
  constructor
  · intro found
    unfold atFront? at found
    split at found
    · rename_i rest
      dsimp only at found
      split at found
      · rename_i tail closing
        split at found
        · cases found
        · rename_i nonempty
          cases found
          refine ⟨⟨_, by simpa using nonempty, Text.absentBefore _ rest, rfl⟩, tail, ?_⟩
          have whole : rest.takeWhile (· ≠ '\x7d') ++ '\x7d' :: '\x7d' :: tail = rest := by
            rw [← closing]
            exact (List.prefix_iff_eq_append.mp (List.takeWhile_prefix _)).symm ▸ rfl
          simpa using whole
      · cases found
    · cases found
  · rintro ⟨⟨body, nonempty, closed, rfl⟩, tail, rfl⟩
    have taken := (Text.frontBefore closed ('\x7d' :: tail)).1
    have text : '\x7b' :: '\x7b' :: body ++ ['\x7d', '\x7d'] ++ tail =
        '\x7b' :: '\x7b' :: (body ++ '\x7d' :: '\x7d' :: tail) := by simp
    rw [text]
    simp only [atFront?, taken, List.drop_left]
    simp [nonempty]

theorem wholeReference {text : List Char} : isWhole text = true ↔ IsReference text := by
  simp [isWhole, atFrontReference]

theorem findBehind (skip : Nat) (text : List Char) : findFrom skip text = find (text.drop skip) := by
  induction skip generalizing text with
  | zero => rfl
  | succ skip ih =>
    cases text with
    | nil => simp [find, findFrom]
    | cons c rest => simpa [findFrom] using ih rest

theorem findAtFront {r : List Char} (reference : IsReference r) (text : List Char) :
    find (r ++ text) = r :: find text := by
  have front := atFrontReference.mpr ⟨reference, List.prefix_append r text⟩
  obtain ⟨c, rest, rfl⟩ := List.exists_cons_of_ne_nil reference.nonempty
  simp only [List.cons_append] at front ⊢
  have behind := findBehind rest.length (rest ++ text)
  rw [List.drop_left] at behind
  simp [find, findFrom, front, behind]

theorem Unreferenced.tail {c : Char} {gap rest : List Char} (none : Unreferenced (c :: gap) rest) :
    Unreferenced gap rest := fun front back r split =>
  none (c :: front) back r (by rw [split, List.cons_append])

theorem Unreferenced.empty (rest : List Char) : Unreferenced [] rest := fun _ _ _ split nonempty =>
  absurd (List.append_eq_nil_iff.mp split.symm).2 nonempty

theorem findPastGap {gap rest : List Char} (none : Unreferenced gap rest) :
    find (gap ++ rest) = find rest := by
  induction gap with
  | nil => rfl
  | cons c gap ih =>
    have here : atFront? (c :: (gap ++ rest)) = Option.none := by
      rw [Option.eq_none_iff_forall_ne_some]
      intro r found
      obtain ⟨reference, front⟩ := atFrontReference.mp found
      exact none [] (c :: gap) r rfl (List.cons_ne_nil _ _) reference front
    rw [← ih none.tail]
    simp [find, findFrom, here]

theorem findCut {text lead : List Char} {pieces : List (List Char × List Char)}
    (cut : Cut text lead pieces) : find text = pieces.map Prod.fst := by
  induction cut with
  | last none => simpa [find, findFrom] using findPastGap none
  | next none reference _ ih =>
    rw [List.append_assoc, findPastGap none, findAtFront reference, ih, List.map_cons]

theorem Cut.extend {c : Char} {text lead : List Char} {pieces : List (List Char × List Char)}
    (cut : Cut text lead pieces) (start : atFront? (c :: text) = none) :
    Cut (c :: text) (c :: lead) pieces := by
  have longer : ∀ {gap rest}, text = gap ++ rest → Unreferenced gap rest →
      Unreferenced (c :: gap) rest := by
    rintro gap rest rfl inner front back r split nonempty reference front'
    cases front with
    | nil =>
      obtain rfl : c :: gap = back := split
      have found := atFrontReference.mpr ⟨reference, front'⟩
      rw [List.cons_append, start] at found
      cases found
    | cons d front =>
      injection split with _ split
      exact inner front back r split nonempty reference front'
  cases cut with
  | last none => exact .last (longer (List.append_nil _).symm none)
  | next none reference rest =>
    exact .next (longer (List.append_assoc ..) none) reference rest

theorem everyTextCut (text : List Char) : ∃ lead pieces, Cut text lead pieces := by
  induction size : text.length using Nat.strongRecOn generalizing text with
  | _ n ih =>
    subst size
    cases text with
    | nil =>
      exact ⟨[], [], .last (.empty [])⟩
    | cons c rest =>
      cases start : atFront? (c :: rest) with
      | none =>
        obtain ⟨lead, pieces, cut⟩ := ih rest.length (Nat.lt_succ_self _) rest rfl
        exact ⟨c :: lead, pieces, cut.extend start⟩
      | some r =>
        obtain ⟨reference, behind, split⟩ := atFrontReference.mp start
        have shorter : behind.length < (c :: rest).length := by
          have := List.length_pos_of_ne_nil reference.nonempty
          rw [← split, List.length_append]
          omega
        obtain ⟨lead, pieces, cut⟩ := ih _ shorter behind rfl
        rw [← split]
        exact ⟨[], (r, lead) :: pieces, .next (.empty _) reference cut⟩

def joined (lead : List Char) (pieces : List (List Char × List Char)) : List Char :=
  lead ++ pieces.flatMap fun piece => piece.1 ++ piece.2

theorem Cut.text {text lead : List Char} {pieces : List (List Char × List Char)}
    (cut : Cut text lead pieces) : joined lead pieces = text := by
  induction cut with
  | last _ => simp [joined]
  | next _ _ _ ih =>
    rw [← ih]
    simp [joined]

theorem Cut.references {text lead : List Char} {pieces : List (List Char × List Char)}
    (cut : Cut text lead pieces) : ∀ piece ∈ pieces, IsReference piece.1 := by
  induction cut with
  | last _ => simp
  | next _ reference _ ih => simpa [reference] using ih

theorem Cut.hasPieces {text lead r : List Char} {pieces : List (List Char × List Char)}
    (cut : Cut text lead pieces) (reference : IsReference r) (inside : r <:+: text) :
    pieces ≠ [] := by
  rintro rfl
  cases cut with
  | last none =>
    obtain ⟨front, back, rfl⟩ := inside
    refine none front (r ++ back) r (List.append_assoc ..) ?_ reference ?_
    · simp [reference.nonempty]
    · simp

end Reshape.Reference
