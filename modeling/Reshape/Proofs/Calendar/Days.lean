import Reshape.Calendar.Day
/-! The calendar and the count of its days are inverse to each other: the day found for a number is
a day of the calendar, and counting back from it gives the number. -/
namespace Reshape.Calendar

def yearLength (year : Int) : Nat :=
  if isLeap year then 366 else 365

theorem daysBeforeNext (year : Int) :
    daysBeforeYear (year + 1) = daysBeforeYear year + yearLength year := by
  have rule : isLeap year = true ↔ year % 4 = 0 ∧ (year % 100 ≠ 0 ∨ year % 400 = 0) := by
    simp only [isLeap, Bool.and_eq_true, Bool.or_eq_true, decide_eq_true_eq]
  simp only [daysBeforeYear, yearLength, rule]
  split <;> omega

theorem daysBeforeMono {earlier later : Int} (ordered : earlier ≤ later) :
    daysBeforeYear earlier ≤ daysBeforeYear later := by
  simp only [daysBeforeYear]
  omega

theorem yearBounds (n : Int) :
    daysBeforeYear (yearOf n) ≤ n ∧ n < daysBeforeYear (yearOf n + 1) := by
  have below : daysBeforeYear (400 * n / 146097 + 1 - 1) ≤ n := by
    simp only [daysBeforeYear]
    omega
  have above : n < daysBeforeYear (400 * n / 146097 + 1 + 1 + 1) := by
    simp only [daysBeforeYear]
    omega
  generalize estimate : 400 * n / 146097 + 1 = guess at below above
  simp only [yearOf, estimate]
  split
  · rename_i early
    exact ⟨below, by rwa [Int.sub_add_cancel]⟩
  · split
    · rename_i late
      exact ⟨late, above⟩
    · rename_i early late
      exact ⟨Int.not_lt.mp early, Int.not_le.mp late⟩

theorem yearReached {year n : Int} : year ≤ yearOf n ↔ daysBeforeYear year ≤ n := by
  obtain ⟨started, ended⟩ := yearBounds n
  constructor
  · intro reached
    exact Int.le_trans (daysBeforeMono reached) started
  · intro counted
    refine Int.le_of_lt_add_one (Int.not_le.mp fun later => ?_)
    exact Int.not_le.mpr ended (Int.le_trans (daysBeforeMono later) counted)

theorem monthsFill (year : Int) :
    (monthLengths (isLeap year)).foldr (· + ·) 0 = yearLength year := by
  rw [yearLength]
  cases isLeap year <;> rfl

structure Located (first : Nat) (lengths : List Nat) (n : Nat) (place : Nat × Nat) : Prop where
  month : first ≤ place.1
  day : 1 ≤ place.2
  inside : ∃ length, lengths[place.1 - first]? = some length ∧ place.2 ≤ length
  counted : (lengths.take (place.1 - first)).foldr (· + ·) 0 + (place.2 - 1) = n

theorem located {lengths : List Nat} {n : Nat} (few : n < lengths.foldr (· + ·) 0) (first : Nat) :
    Located first lengths n (locate first lengths n) := by
  induction lengths generalizing first n with
  | nil => exact absurd few (Nat.not_lt_zero n)
  | cons length rest ih =>
    rw [List.foldr_cons] at few
    by_cases here : n < length
    · rw [locate, if_pos here]
      exact ⟨Nat.le_refl first, Nat.le_add_left 1 n, ⟨length, by simp, here⟩, by simp⟩
    · rw [locate, if_neg here]
      obtain ⟨month, day, ⟨found, place, within⟩, counted⟩ :=
        ih (by omega : n - length < rest.foldr (· + ·) 0) (first + 1)
      have next : (locate (first + 1) rest (n - length)).1 - first =
          (locate (first + 1) rest (n - length)).1 - (first + 1) + 1 := by omega
      refine ⟨by omega, day, ⟨found, ?_, within⟩, ?_⟩
      · rw [next, List.getElem?_cons_succ, place]
      · rw [next, List.take_succ_cons, List.foldr_cons]
        omega

theorem validIff (day : Day) : day.isValid = true ↔ day.Valid := by
  simp only [Day.isValid, Day.Valid, Bool.and_eq_true, decide_eq_true_eq, and_assoc]
  cases (monthLengths (isLeap day.year))[day.month - 1]? <;> simp

theorem dayFound (number : Int) :
    (Day.ofNumber number).Valid ∧ (Day.ofNumber number).number = number := by
  obtain ⟨started, ended⟩ := yearBounds (number + epoch)
  rw [daysBeforeNext] at ended
  have few : (number + epoch - daysBeforeYear (yearOf (number + epoch))).toNat <
      (monthLengths (isLeap (yearOf (number + epoch)))).foldr (· + ·) 0 := by
    rw [monthsFill]
    omega
  obtain ⟨month, day, inside, counted⟩ := located few 1
  refine ⟨⟨month, day, inside⟩, ?_⟩
  rw [Day.number, Day.ordinal]
  simp only [Day.ofNumber]
  rw [counted]
  omega

end Reshape.Calendar
