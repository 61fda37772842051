import Mathlib.Data.List.TakeWhile
import Reshape.Text.Basic
/-! The front of a text as far as one kind of character goes, and blanks around text. Trimming takes
away the blanks at both ends and nothing else, so it does not tell a text from the same text with more
blanks around it. -/
namespace Reshape.Text

section Front
variable {kind : Char → Bool} {c : Char} {front rest : List Char}

theorem frontTaken (each : ∀ d ∈ front, kind d = true) (stop : ∀ d ∈ rest.head?, kind d = false) :
    (front ++ rest).takeWhile kind = front ∧ (front ++ rest).dropWhile kind = rest := by
  rw [List.takeWhile_append_of_pos each, List.dropWhile_append_of_pos each]
  cases rest with
  | nil => exact ⟨List.append_nil front, rfl⟩
  | cons d behind =>
    have other := stop d rfl
    rw [List.takeWhile_cons, List.dropWhile_cons, other]
    exact ⟨List.append_nil front, rfl⟩

theorem othersThan (absent : c ∉ front) : ∀ d ∈ front, decide (d ≠ c) = true :=
  fun _ member => decide_eq_true fun same => absent (same ▸ member)

theorem frontBefore (absent : c ∉ front) (rest : List Char) :
    (front ++ c :: rest).takeWhile (· ≠ c) = front ∧
    (front ++ c :: rest).dropWhile (· ≠ c) = c :: rest := by
  have stop : ∀ d ∈ (c :: rest).head?, decide (d ≠ c) = false := by simp
  exact frontTaken (othersThan absent) stop

theorem absentBefore (c : Char) (cs : List Char) : c ∉ cs.takeWhile (· ≠ c) := by
  intro inside
  simpa using List.mem_takeWhile_imp inside

end Front

def Blank (cs : List Char) : Prop :=
  ∀ c ∈ cs, isBlank c = true

instance (cs : List Char) : Decidable (Blank cs) :=
  List.decidableBAll (isBlank · = true) cs

def Padded (token text : List Char) : Prop :=
  ∃ before after, Blank before ∧ Blank after ∧ text = before ++ token ++ after

variable {before after cs : List Char}

theorem blankNothing : Blank [] :=
  List.forall_mem_nil _

theorem Blank.absent {c : Char} (blank : Blank cs) (visible : isBlank c = false) : c ∉ cs := by
  intro member
  have other := blank c member
  rw [visible] at other
  cases other

theorem trimStartPast (blank : Blank before) (cs : List Char) :
    trimStart (before ++ cs) = trimStart cs :=
  List.dropWhile_append_of_pos blank

theorem trimEndPast (blank : Blank after) (cs : List Char) : trimEnd (cs ++ after) = trimEnd cs := by
  have backwards : ∀ c ∈ after.reverse, isBlank c = true := fun c member =>
    blank c (List.mem_reverse.mp member)
  simp only [trimEnd, List.reverse_append, List.dropWhile_append_of_pos backwards]

theorem startTrimmed (cs : List Char) : ∃ before, Blank before ∧ cs = before ++ trimStart cs :=
  ⟨cs.takeWhile isBlank, fun _ member => List.mem_takeWhile_imp member,
    List.takeWhile_append_dropWhile.symm⟩

theorem endTrimmed (cs : List Char) : ∃ after, Blank after ∧ cs = trimEnd cs ++ after := by
  obtain ⟨taken, blank, split⟩ := startTrimmed cs.reverse
  have backwards : Blank taken.reverse := fun c member => blank c (List.mem_reverse.mp member)
  refine ⟨taken.reverse, backwards, ?_⟩
  have whole := congrArg List.reverse split
  rw [List.reverse_reverse, List.reverse_append] at whole
  exact whole

theorem paddedTrim (cs : List Char) : Padded (trim cs) cs := by
  obtain ⟨before, blankBefore, start⟩ := startTrimmed cs
  obtain ⟨after, blankAfter, rest⟩ := endTrimmed (trimStart cs)
  refine ⟨before, after, blankBefore, blankAfter, ?_⟩
  rw [List.append_assoc, trim, ← rest, ← start]

theorem trimBehind (blank : Blank after) (cs : List Char) : trim (cs ++ after) = trim cs := by
  have start : trimStart (cs ++ after) =
      if (trimStart cs).isEmpty then trimStart after else trimStart cs ++ after :=
    List.dropWhile_append
  have nothing : trimStart after = [] := List.dropWhile_eq_nil_iff.mpr blank
  rw [trim, trim, start]
  cases trimStart cs with
  | nil => rw [List.isEmpty_nil, if_pos rfl, nothing]
  | cons c rest => rw [List.isEmpty_cons, if_neg Bool.false_ne_true, trimEndPast blank]

theorem Padded.trimmed {token text : List Char} (padded : Padded token text) :
    trim text = trim token := by
  obtain ⟨before, after, blankBefore, blankAfter, rfl⟩ := padded
  rw [trimBehind blankAfter, trim, trimStartPast blankBefore, trim]

theorem trimVisible {first last : Char} (start : isBlank first = false) (stop : isBlank last = false)
    (middle : List Char) : trim (first :: (middle ++ [last])) = first :: (middle ++ [last]) := by
  rw [trim, trimStartCons, start, if_neg Bool.false_ne_true, trimEnd]
  simp [stop]

theorem trimNoBlanks (each : ∀ c ∈ cs, isBlank c = false) : trim cs = cs := by
  obtain ⟨before, after, blankBefore, blankAfter, split⟩ := paddedTrim cs
  have nothing : ∀ {part : List Char}, part ⊆ cs → Blank part → part = [] := by
    intro part inside blank
    refine List.eq_nil_iff_forall_not_mem.mpr fun c member => ?_
    exact blank.absent (each c (inside member)) member
  have front : before = [] := nothing (by rw [split]; simp) blankBefore
  have back : after = [] := nothing (by rw [split]; simp) blankAfter
  rw [front, back, List.nil_append, List.append_nil] at split
  exact split.symm

end Reshape.Text
