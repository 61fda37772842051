import Mathlib.Data.List.Forall2
import Reshape.Proofs.Text.Padding
import Reshape.Text.Basic
/-! What cutting gives for text that was joined, and for text with blanks around it. Pieces come back
if no separator stands in them; for pairs of separators, pieces may hold single ones but must not end
with one. A separator is no blank, so blanks around a text stay around its first and last piece. -/
namespace Reshape.Text
variable {sep : Char}

theorem splitAtSplitOn (sep : Char) (cs : List Char) : splitAt sep cs = cs.splitOn sep := by
  induction cs with
  | nil => rfl
  | cons c rest ih =>
    rw [splitAt, List.splitOn_cons_eq_if_modifyHead, ih]
    simp only [beq_iff_eq]
    congr 1
    cases shown : rest.splitOn sep with
    | nil => exact absurd shown (List.splitOn_ne_nil sep rest)
    | cons piece pieces => rfl

theorem splitAtJoined {pieces : List (List Char)} (each : ∀ piece ∈ pieces, sep ∉ piece)
    (some : pieces ≠ []) : splitAt sep (List.intercalate [sep] pieces) = pieces := by
  rw [splitAtSplitOn, List.splitOn_intercalate sep each some]

theorem splitAtApart (sep : Char) (before after : List Char) :
    splitAt sep (before ++ sep :: after) = splitAt sep before ++ splitAt sep after := by
  rw [splitAtSplitOn, splitAtSplitOn, splitAtSplitOn, List.splitOn_append_cons_self]

theorem splitAtWhole {cs : List Char} (absent : sep ∉ cs) : splitAt sep cs = [cs] := by
  rw [splitAtSplitOn, List.splitOn_eq_singleton absent]

theorem extendFirstMember {c : Char} {piece : List Char} {pieces : List (List Char)}
    (member : piece ∈ extendFirst c pieces) :
    piece = [c] ∨ piece ∈ pieces ∨ ∃ first ∈ pieces, piece = c :: first := by
  cases pieces with
  | nil => exact .inl (List.mem_singleton.mp member)
  | cons first rest =>
    obtain rfl | behind := List.mem_cons.mp member
    · exact .inr (.inr ⟨first, List.mem_cons_self, rfl⟩)
    · exact .inr (.inl (List.mem_cons_of_mem _ behind))

theorem splitAtClean {cs piece : List Char} (member : piece ∈ splitAt sep cs) : sep ∉ piece := by
  induction cs generalizing piece with
  | nil =>
    rw [List.mem_singleton.mp member]
    exact List.not_mem_nil
  | cons c rest ih =>
    rw [splitAt] at member
    split at member
    · obtain rfl | behind := List.mem_cons.mp member
      · exact List.not_mem_nil
      · exact ih behind
    · rename_i other
      have different : sep ≠ c := fun same => other same.symm
      obtain rfl | behind | ⟨first, inside, rfl⟩ := extendFirstMember member
      · simpa using different
      · exact ih behind
      · simpa [different] using ih inside

theorem splitAtPart {cs piece : List Char} (member : piece ∈ splitAt sep cs) : piece ⊆ cs := by
  induction cs generalizing piece with
  | nil =>
    rw [List.mem_singleton.mp member]
    exact List.Subset.refl []
  | cons c rest ih =>
    rw [splitAt] at member
    split at member
    · obtain rfl | behind := List.mem_cons.mp member
      · exact List.nil_subset _
      · exact List.subset_cons_of_subset c (ih behind)
    · obtain rfl | behind | ⟨first, inside, rfl⟩ := extendFirstMember member
      · simp
      · exact List.subset_cons_of_subset c (ih behind)
      · exact List.cons_subset_cons c (ih inside)

inductive Unpaired (sep : Char) : List Char → Prop where
  | nil : Unpaired sep []
  | other {c : Char} {rest : List Char} (different : c ≠ sep) (behind : Unpaired sep rest) :
      Unpaired sep (c :: rest)
  | lone {c : Char} {rest : List Char} (different : c ≠ sep) (behind : Unpaired sep (c :: rest)) :
      Unpaired sep (sep :: c :: rest)

theorem unpairedPast {first rest : List Char} (absent : sep ∉ first) (behind : Unpaired sep rest) :
    Unpaired sep (first ++ rest) := by
  induction first with
  | nil => exact behind
  | cons c first ih =>
    obtain ⟨different, absent⟩ : sep ≠ c ∧ sep ∉ first := by simpa using absent
    exact .other different.symm (ih absent)

theorem unpairedAbsent {cs : List Char} (absent : sep ∉ cs) : Unpaired sep cs := by
  have whole := unpairedPast absent .nil
  rwa [List.append_nil] at whole

theorem unpairedJoined {first : List Char} {others : List (List Char)}
    (each : ∀ piece ∈ first :: others, sep ∉ piece) (filled : ∀ piece ∈ others, piece ≠ []) :
    Unpaired sep (List.intercalate [sep] (first :: others)) := by
  induction others generalizing first with
  | nil =>
    rw [List.intercalate_singleton]
    exact unpairedAbsent (each first List.mem_cons_self)
  | cons second others ih =>
    obtain ⟨here, each⟩ := List.forall_mem_cons.mp each
    obtain ⟨notEmpty, filled⟩ := List.forall_mem_cons.mp filled
    have behind := ih each filled
    obtain ⟨c, second, rfl⟩ := List.exists_cons_of_ne_nil notEmpty
    have different : c ≠ sep := fun same =>
      each _ List.mem_cons_self (same ▸ List.mem_cons_self)
    have starts : ∃ rest, List.intercalate [sep] ((c :: second) :: others) = c :: rest := by
      cases others with
      | nil => exact ⟨second, List.intercalate_singleton⟩
      | cons third others => exact ⟨_, List.intercalate_cons_cons⟩
    obtain ⟨rest, starts⟩ := starts
    rw [List.intercalate_cons_cons, List.append_assoc, starts]
    rw [starts] at behind
    exact unpairedPast here (.lone different behind)

theorem splitAtPairOther {c : Char} (different : c ≠ sep) (cs : List Char) :
    splitAtPair sep (c :: cs) = extendFirst c (splitAtPair sep cs) := by
  cases cs with
  | nil => rfl
  | cons d rest => rw [splitAtPair, if_neg fun pair => different pair.1]

theorem splitAtPairLone {c : Char} (different : c ≠ sep) (cs : List Char) :
    splitAtPair sep (sep :: c :: cs) = extendFirst sep (splitAtPair sep (c :: cs)) := by
  rw [splitAtPair, if_neg fun pair => different pair.2]

theorem Unpaired.alone {cs : List Char} (unpaired : Unpaired sep cs) : splitAtPair sep cs = [cs] := by
  induction unpaired with
  | nil => rfl
  | other different _ ih => rw [splitAtPairOther different, ih, extendFirst]
  | lone different _ ih => rw [splitAtPairLone different, ih, extendFirst]

theorem Unpaired.past {cs : List Char} (unpaired : Unpaired sep cs) (rest : List Char) :
    splitAtPair sep (cs ++ sep :: sep :: rest) = cs :: splitAtPair sep rest := by
  induction unpaired with
  | nil => rw [List.nil_append, splitAtPair, if_pos ⟨rfl, rfl⟩]
  | other different _ ih => rw [List.cons_append, splitAtPairOther different, ih, extendFirst]
  | lone different _ ih =>
    rw [List.cons_append] at ih
    rw [List.cons_append, List.cons_append, splitAtPairLone different, ih, extendFirst]

theorem splitAtPairJoined {pieces : List (List Char)} (each : ∀ piece ∈ pieces, Unpaired sep piece)
    (some : pieces ≠ []) : splitAtPair sep (List.intercalate [sep, sep] pieces) = pieces := by
  induction pieces with
  | nil => exact absurd rfl some
  | cons first others ih =>
    obtain ⟨here, behind⟩ := List.forall_mem_cons.mp each
    cases others with
    | nil => rw [List.intercalate_singleton, here.alone]
    | cons second others =>
      have rest := ih behind (List.cons_ne_nil second others)
      rw [List.intercalate_cons_cons, List.append_assoc, List.cons_append, List.singleton_append,
        here.past, rest]

section Padding

def Ended (piece text : List Char) : Prop :=
  ∃ after, Blank after ∧ text = piece ++ after

variable {after : List Char}

theorem endedItself (cs : List Char) : Ended cs cs :=
  ⟨[], blankNothing, (List.append_nil cs).symm⟩

theorem extendEnded (c : Char) {pieces others : List (List Char)}
    (ended : List.Forall₂ Ended pieces others) :
    List.Forall₂ Ended (extendFirst c pieces) (extendFirst c others) := by
  cases ended with
  | nil => exact .cons (endedItself [c]) .nil
  | cons first rest =>
    obtain ⟨after, blank, rfl⟩ := first
    exact .cons ⟨after, blank, rfl⟩ rest

theorem extendPadded {c : Char} (blank : isBlank c = true) {pieces others : List (List Char)}
    (padded : List.Forall₂ Padded pieces others) (some : others ≠ []) :
    List.Forall₂ Padded pieces (extendFirst c others) := by
  cases padded with
  | nil => exact absurd rfl some
  | cons first rest =>
    obtain ⟨before, after, blankBefore, blankAfter, rfl⟩ := first
    have longer : Blank (c :: before) := List.forall_mem_cons.mpr ⟨blank, blankBefore⟩
    exact .cons ⟨c :: before, after, longer, blankAfter, rfl⟩ rest

theorem splitAtEnded (visible : isBlank sep = false) (blank : Blank after) (cs : List Char) :
    List.Forall₂ Ended (splitAt sep cs) (splitAt sep (cs ++ after)) := by
  induction cs with
  | nil =>
    rw [List.nil_append, splitAtWhole (blank.absent visible)]
    exact .cons ⟨after, blank, rfl⟩ .nil
  | cons c rest ih =>
    rw [List.cons_append, splitAt, splitAt]
    split
    · exact .cons (endedItself []) ih
    · exact extendEnded c ih

theorem splitAtPairEnded (visible : isBlank sep = false) (blank : Blank after) (cs : List Char) :
    List.Forall₂ Ended (splitAtPair sep cs) (splitAtPair sep (cs ++ after)) := by
  have absent := blank.absent visible
  fun_induction splitAtPair sep cs with
  | case1 =>
    rw [List.nil_append, (unpairedAbsent absent).alone]
    exact .cons ⟨after, blank, rfl⟩ .nil
  | case2 c =>
    have whole : splitAtPair sep (c :: after) = [c :: after] := by
      cases after with
      | nil => rfl
      | cons d rest =>
        have apart : ¬ (c = sep ∧ d = sep) := fun pair => absent (pair.2 ▸ List.mem_cons_self)
        rw [splitAtPair, if_neg apart, (unpairedAbsent absent).alone, extendFirst]
    rw [List.singleton_append, whole]
    exact .cons ⟨after, blank, rfl⟩ .nil
  | case3 c d rest pair ih =>
    rw [List.cons_append, List.cons_append, splitAtPair, if_pos pair]
    exact .cons (endedItself []) ih
  | case4 c d rest apart ih =>
    rw [List.cons_append, List.cons_append, splitAtPair, if_neg apart]
    exact extendEnded c ih

theorem endedPadded {pieces others : List (List Char)} (ended : List.Forall₂ Ended pieces others) :
    List.Forall₂ Padded pieces others :=
  ended.imp fun _ _ ⟨after, blank, same⟩ => ⟨[], after, blankNothing, blank, same⟩

theorem startPadded {cut : List Char → List (List Char)} (some : ∀ cs, cut cs ≠ [])
    (started : ∀ c cs, isBlank c = true → cut (c :: cs) = extendFirst c (cut cs))
    {before token text : List Char} (blank : Blank before)
    (padded : List.Forall₂ Padded (cut token) (cut text)) :
    List.Forall₂ Padded (cut token) (cut (before ++ text)) := by
  induction before with
  | nil => exact padded
  | cons c before ih =>
    obtain ⟨here, behind⟩ := List.forall_mem_cons.mp blank
    rw [List.cons_append, started c _ here]
    exact extendPadded here (ih behind) (some _)

theorem blankDiffers (visible : isBlank sep = false) {c : Char} (blank : isBlank c = true) :
    c ≠ sep := by
  rintro rfl
  rw [visible] at blank
  cases blank

theorem splitAtPadded (visible : isBlank sep = false) {token text : List Char}
    (padded : Padded token text) : List.Forall₂ Padded (splitAt sep token) (splitAt sep text) := by
  obtain ⟨before, after, blankBefore, blankAfter, rfl⟩ := padded
  rw [List.append_assoc]
  refine startPadded (splitAtNotEmpty sep) (fun c cs blank => ?_) blankBefore
    (endedPadded (splitAtEnded visible blankAfter token))
  rw [splitAt, if_neg (blankDiffers visible blank)]

theorem splitAtPairPadded (visible : isBlank sep = false) {token text : List Char}
    (padded : Padded token text) :
    List.Forall₂ Padded (splitAtPair sep token) (splitAtPair sep text) := by
  obtain ⟨before, after, blankBefore, blankAfter, rfl⟩ := padded
  rw [List.append_assoc]
  exact startPadded (splitAtPairNotEmpty sep)
    (fun c cs blank => splitAtPairOther (blankDiffers visible blank) cs) blankBefore
    (endedPadded (splitAtPairEnded visible blankAfter token))

theorem trimmedAlike {β : Type} {read : List Char → β}
    (alike : ∀ token text, Padded token text → read text = read token)
    {pieces others : List (List Char)} (padded : List.Forall₂ Padded pieces others) :
    others.map read = pieces.map read := by
  induction padded with
  | nil => rfl
  | cons first _ ih => rw [List.map_cons, List.map_cons, alike _ _ first, ih]

end Padding

end Reshape.Text
