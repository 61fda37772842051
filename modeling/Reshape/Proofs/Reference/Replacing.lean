import Mathlib.Data.List.Infix
import Reshape.Proofs.Reference.Cut
/-! Replacing one reference after the other where its text first stands. Letters carry a mark that
says whether they stay: those between references and those of replacements do, those of references
that wait to be replaced do not. Replacing in turn is replacing by place exactly if no reference
stands in what is already final when its turn comes. -/
namespace Reshape.Reference

structure Letter where
  char : Char
  stays : Bool
  deriving DecidableEq, Repr

def staying (cs : List Char) : List Letter :=
  cs.map (⟨·, true⟩)

def waiting (cs : List Char) : List Letter :=
  cs.map (⟨·, false⟩)

def chars (ls : List Letter) : List Char :=
  ls.map Letter.char

def stayCount (ls : List Letter) : Nat :=
  ls.countP Letter.stays

def replaceLetters (old new : List Char) : List Letter → List Letter
  | [] => []
  | l :: rest =>
    if old.isPrefixOf (chars (l :: rest)) then staying new ++ (l :: rest).drop old.length
    else l :: replaceLetters old new rest

def inTurn : List (List Char × List Char) → List (List Char) → List Letter → List Letter
  | (r, _) :: pieces, new :: news, ls => inTurn pieces news (replaceLetters r new ls)
  | _, _, ls => ls

def byPlace : List (List Char × List Char) → List (List Char) → List Char
  | (_, gap) :: pieces, new :: news => new ++ gap ++ byPlace pieces news
  | _, _ => []

def marked (pieces : List (List Char × List Char)) : List Letter :=
  pieces.flatMap fun piece => waiting piece.1 ++ staying piece.2

/- What is final before a reference may run into the reference itself, but ends before its last
character: the whole reference is its own occurrence. -/
def Undisturbed : List Char → List (List Char × List Char) → List (List Char) → Prop
  | before, (r, gap) :: pieces, new :: news =>
    ¬ r <:+: before ++ r.dropLast ∧ Undisturbed (before ++ new ++ gap) pieces news
  | _, _, _ => True

section Letters
variable {old new : List Char}

@[simp] theorem charsStaying (cs : List Char) : chars (staying cs) = cs := by
  simp [chars, staying, Function.comp_def]

@[simp] theorem charsWaiting (cs : List Char) : chars (waiting cs) = cs := by
  simp [chars, waiting, Function.comp_def]

@[simp] theorem charsAppend (a b : List Letter) : chars (a ++ b) = chars a ++ chars b :=
  List.map_append

@[simp] theorem stayingAppend (a b : List Char) : staying (a ++ b) = staying a ++ staying b :=
  List.map_append

@[simp] theorem stayCountAppend (a b : List Letter) :
    stayCount (a ++ b) = stayCount a + stayCount b :=
  List.countP_append

@[simp] theorem stayCountStaying (cs : List Char) : stayCount (staying cs) = cs.length := by
  simp [stayCount, staying, List.countP_map, Function.comp_def]

@[simp] theorem stayCountWaiting (cs : List Char) : stayCount (waiting cs) = 0 := by
  simp [stayCount, waiting]

theorem stayCountDrop (n : Nat) (ls : List Letter) : stayCount (ls.drop n) ≤ stayCount ls :=
  (List.drop_sublist n ls).countP_le

theorem charsReplaceLetters (ls : List Letter) :
    chars (replaceLetters old new ls) = replaceFirst old new (chars ls) := by
  induction ls with
  | nil => rfl
  | cons l rest ih =>
    rw [replaceLetters]
    split
    · rename_i front
      rw [charsAppend, charsStaying]
      simp only [chars, List.map_cons, replaceFirst] at front ⊢
      rw [if_pos front, List.map_drop, List.map_cons]
    · rename_i front
      simp only [chars, List.map_cons, replaceFirst] at front ih ⊢
      rw [if_neg front, ih]

theorem stayCountReplaceLetters (old new : List Char) (ls : List Letter) :
    stayCount (replaceLetters old new ls) ≤ stayCount ls + new.length := by
  induction ls with
  | nil => simp [replaceLetters, stayCount]
  | cons l rest ih =>
    rw [replaceLetters]
    split
    · have := stayCountDrop old.length (l :: rest)
      rw [stayCountAppend, stayCountStaying]
      omega
    · simp only [stayCount, List.countP_cons] at ih ⊢
      omega

theorem upToLast (before old tail : List Char) :
    before ++ old.dropLast <+: before ++ (old ++ tail) :=
  (List.prefix_append_right_inj _).mpr ((List.dropLast_prefix old).trans (List.prefix_append _ _))

theorem replaceAtPlace {before : List Char} (nonempty : old ≠ [])
    (quiet : ¬ old <:+: before ++ old.dropLast) (behind : List Letter) :
    replaceLetters old new (staying before ++ (waiting old ++ behind)) =
      staying before ++ (staying new ++ behind) := by
  induction before with
  | nil =>
    obtain ⟨c, rest, rfl⟩ := List.exists_cons_of_ne_nil nonempty
    have front : (c :: rest).isPrefixOf (chars (waiting (c :: rest) ++ behind)) = true := by
      simp
    simp only [staying, List.map_nil, List.nil_append] at front ⊢
    simp only [waiting, List.map_cons, List.cons_append] at front ⊢
    rw [replaceLetters, if_pos front]
    simp [staying]
  | cons c before ih =>
    have later : ¬ old <:+: before ++ old.dropLast := fun inside =>
      quiet (inside.trans (List.suffix_cons c _).isInfix)
    have notHere : ¬ old <+: c :: before ++ (old ++ chars behind) := by
      intro front
      -- the part up to the last character of the own occurrence is long enough to hold `old`
      have short : old.length ≤ (c :: before ++ old.dropLast).length := by
        simp only [List.length_append, List.length_cons, List.length_dropLast]
        omega
      have part := upToLast (c :: before) old (chars behind)
      exact quiet (List.prefix_of_prefix_length_le front part short).isInfix
    have split : staying (c :: before) ++ (waiting old ++ behind) =
        ⟨c, true⟩ :: (staying before ++ (waiting old ++ behind)) := rfl
    rw [split, replaceLetters, if_neg, ih later]
    · rfl
    · rw [List.isPrefixOf_iff_prefix, ← split]
      simpa using notHere

theorem replaceTooEarly {before : List Char} (nonempty : old ≠ [])
    (early : old <:+: before ++ old.dropLast) (new : List Char) (behind : List Letter) :
    stayCount (replaceLetters old new (staying before ++ (waiting old ++ behind))) <
      before.length + stayCount behind + new.length := by
  induction before with
  | nil =>
    have := early.length_le
    have := List.length_pos_of_ne_nil nonempty
    simp only [List.nil_append, List.length_dropLast] at *
    omega
  | cons c before ih =>
    have split : staying (c :: before) ++ (waiting old ++ behind) =
        ⟨c, true⟩ :: (staying before ++ (waiting old ++ behind)) := rfl
    rw [split, replaceLetters]
    split
    · obtain ⟨d, rest, rfl⟩ := List.exists_cons_of_ne_nil nonempty
      have := stayCountDrop rest.length (staying before ++ (waiting (d :: rest) ++ behind))
      simp only [List.length_cons, List.drop_succ_cons, stayCountAppend, stayCountStaying,
        stayCountWaiting] at *
      omega
    · rename_i notHere
      have later : old <:+: before ++ old.dropLast := by
        rcases List.infix_cons_iff.mp early with front | later
        · refine absurd ?_ notHere
          rw [List.isPrefixOf_iff_prefix, ← split]
          simpa using front.trans (upToLast (c :: before) old (chars behind))
        · exact later
      have := ih later
      simp only [stayCount, List.countP_cons, List.length_cons, if_true] at *
      omega

end Letters

section Turns
variable {pieces : List (List Char × List Char)} {news : List (List Char)}

theorem stayCountInTurn (pieces : List (List Char × List Char)) (news : List (List Char))
    (ls : List Letter) :
    stayCount (inTurn pieces news ls) ≤ stayCount ls + news.flatten.length := by
  induction pieces generalizing news ls with
  | nil => simp [inTurn]
  | cons piece pieces ih =>
    cases news with
    | nil => simp [inTurn]
    | cons new news =>
      have rest := ih news (replaceLetters piece.1 new ls)
      have here := stayCountReplaceLetters piece.1 new ls
      simp only [inTurn, List.flatten_cons, List.length_append] at *
      omega

theorem byPlaceLength (same : news.length = pieces.length) :
    (byPlace pieces news).length = stayCount (marked pieces) + news.flatten.length := by
  induction pieces generalizing news with
  | nil =>
    obtain rfl : news = [] := List.length_eq_zero_iff.mp same
    rfl
  | cons piece pieces ih =>
    obtain ⟨new, news, rfl⟩ := List.exists_cons_of_length_eq_add_one same
    have rest := ih (Nat.succ_injective same)
    simp only [byPlace, marked, List.flatMap_cons, List.flatten_cons, List.length_append,
      stayCountAppend, stayCountStaying, stayCountWaiting] at *
    omega

theorem inTurnByPlace (references : ∀ piece ∈ pieces, IsReference piece.1)
    (same : news.length = pieces.length) (before : List Char) :
    inTurn pieces news (staying before ++ marked pieces) =
        staying (before ++ byPlace pieces news) ↔
      Undisturbed before pieces news := by
  induction pieces generalizing news before with
  | nil =>
    obtain rfl : news = [] := List.length_eq_zero_iff.mp same
    simp [inTurn, marked, byPlace, Undisturbed]
  | cons piece pieces ih =>
    obtain ⟨new, news, rfl⟩ := List.exists_cons_of_length_eq_add_one same
    obtain ⟨r, gap⟩ := piece
    have nonempty : r ≠ [] := (references _ List.mem_cons_self).nonempty
    have same : news.length = pieces.length := by simpa using same
    have marks : marked ((r, gap) :: pieces) =
        waiting r ++ (staying gap ++ marked pieces) := by simp [marked]
    rw [marks]
    simp only [inTurn, Undisturbed]
    by_cases quiet : r <:+: before ++ r.dropLast
    · -- fewer letters stay than stand in the text by place
      refine iff_of_false (fun equal => ?_) (fun undisturbed => undisturbed.1 quiet)
      have lost := replaceTooEarly nonempty quiet new (staying gap ++ marked pieces)
      have rest := stayCountInTurn pieces news
        (replaceLetters r new (staying before ++ (waiting r ++ (staying gap ++ marked pieces))))
      have whole := byPlaceLength same
      rw [equal] at rest
      simp only [byPlace, stayCountAppend, stayCountStaying, List.length_append] at *
      omega
    · have ih := ih (fun piece inside => references piece (List.mem_cons_of_mem _ inside)) same
        (before ++ new ++ gap)
      rw [replaceAtPlace nonempty quiet]
      simpa [byPlace, quiet, List.append_assoc] using ih

end Turns

theorem charsMarked (lead : List Char) (pieces : List (List Char × List Char)) :
    chars (staying lead ++ marked pieces) = joined lead pieces := by
  simp only [charsAppend, charsStaying, joined, List.append_cancel_left_eq]
  induction pieces with
  | nil => rfl
  | cons piece pieces ih => simpa [marked] using ih

end Reshape.Reference
