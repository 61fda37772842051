import Reshape.Proofs.Calendar.ReadBack
import Reshape.Value.Basic
import Reshape.Value.Json
/-! Dates and their text as values. In the years 0 to 9999 a date that a number stands for comes
back from its own text, and any other date but a leap second comes back without the part of it
below a millisecond. -/
namespace Reshape

/- The numbers that are a given integer, exact integers and floats alike. -/
inductive Number.Denotes (m : Int) : Number → Prop where
  | int : Denotes m (.int m)
  | float {x : Binary64} (size : x.numerator = m.natAbs * x.denominator)
      (sign : x.negative = decide (m < 0)) : Denotes m (.float x)

namespace Value
open Instant (yearStart FourDigitYear Tells Stamp wholeMillis)
open Text (Padded)

/- The text `s` a date `t` is emitted as: it tells the date in the one layout, and reads as `again`
whatever blanks stand around it. -/
structure ReadsAs (t again : Instant) (s : String) : Prop where
  emitted : (Value.date t).toJson = .string s
  displayed : (Value.date t).display = s
  layout : ∃ day hour minute second milli, Tells t day hour minute second milli ∧
    Stamp day hour minute second milli s.toList
  readBack : ∀ text, Padded s.toList text → (Value.string (String.ofList text)).toDate? = some again

variable {n : Number} {m : Int} {t : Instant}

theorem denotesTruthy (denotes : n.Denotes m) (nonzero : m ≠ 0) :
    (Value.number n).isTruthy = true := by
  cases denotes with
  | int => simp [isTruthy, Number.isZero, nonzero]
  | @float x size sign =>
    have positive : 0 < x.denominator := Nat.two_pow_pos _
    have counted : x.numerator ≠ 0 := by
      rw [size]
      exact Nat.mul_ne_zero (Int.natAbs_ne_zero.mpr nonzero) (Nat.ne_of_gt positive)
    have significand : x.significand ≠ 0 := Nat.ne_zero_of_mul_ne_zero_left counted
    simp [isTruthy, Number.isZero, Binary64.isZero, significand]

theorem denotesTruncated {x : Binary64} (size : x.numerator = m.natAbs * x.denominator)
    (sign : x.negative = decide (m < 0)) : x.truncate = m := by
  have positive : 0 < x.denominator := Nat.two_pow_pos _
  have magnitude : x.numerator / x.denominator = m.natAbs := by
    rw [size, Nat.mul_div_cancel _ positive]
  simp only [Binary64.truncate, magnitude, sign, decide_eq_true_eq]
  omega

theorem denotedMillis (denotes : n.Denotes m)
    (fits : Number.least64 ≤ m ∧ m ≤ Number.greatest64) : millis? n = some m := by
  cases denotes with
  | int =>
    rw [millis?, Number.asInt64?, if_pos fits]
    rfl
  | @float x size sign =>
    have clamped : clamp64 m = m := by
      rw [clamp64, Int.min_eq_right fits.2, Int.max_eq_right fits.1]
    change some (clamp64 x.truncate) = some m
    rw [denotesTruncated size sign, clamped]

theorem millisecondsSplit (least : yearStart 0 * 1000 ≤ m) (most : m < yearStart 10000 * 1000) :
    ∃ t, Instant.ofMillis? m = some t ∧ FourDigitYear t ∧ t.nanos < 1000000000 ∧ t.millis = m ∧
      t.wholeMillis = t := by
  have years : FourDigitYear ⟨m / 1000, (m % 1000).toNat * 1000000⟩ := by
    constructor <;> simp only <;> omega
  refine ⟨_, if_pos (Instant.fourDigitsInRange years), years, ?_, ?_, ?_⟩
  · simp only
    omega
  · simp only [Instant.millis]
    omega
  · simp only [wholeMillis, Nat.mul_div_cancel _ (by decide : 0 < 1000000)]

theorem numberRead (denotes : n.Denotes m) (nonzero : m ≠ 0) (least : yearStart 0 * 1000 ≤ m)
    (most : m < yearStart 10000 * 1000) : (Value.number n).toDate? = Instant.ofMillis? m := by
  have start : Number.least64 ≤ yearStart 0 * 1000 := by decide
  have stop : yearStart 10000 * 1000 ≤ Number.greatest64 := by decide
  have fits : Number.least64 ≤ m ∧ m ≤ Number.greatest64 := by omega
  rw [toDate?, denotesTruthy denotes nonzero]
  simp only [denotedMillis denotes fits]
  rfl

theorem dateReadsAs (years : FourDigitYear t) (noLeap : t.nanos < 1000000000) :
    ReadsAs t t.wholeMillis t.text := by
  have stamp := Instant.stamped years noLeap
  refine ⟨rfl, rfl, ⟨_, _, _, _, _, Instant.tells years noLeap, stamp⟩, fun text padded => ?_⟩
  have written : String.ofList text ≠ "" := by
    obtain ⟨before, after, -, -, rfl⟩ := padded
    intro nothing
    have empty := congrArg String.toList nothing
    rw [String.toList_ofList] at empty
    exact stamp.notEmpty (List.append_eq_nil_iff.mp (List.append_eq_nil_iff.mp empty).1).2
  have truthy : (Value.string (String.ofList text)).isTruthy = true := decide_eq_true written
  rw [toDate?, truthy]
  exact Calendar.textRead years noLeap padded

theorem datesReadBack :
    (∀ (n : Number) (m : Int), n.Denotes m → m ≠ 0 →
      yearStart 0 * 1000 ≤ m → m < yearStart 10000 * 1000 →
        ∃ t s, (Value.number n).toDate? = some t ∧ t.millis = m ∧ ReadsAs t t s) ∧
    (∀ t : Instant, FourDigitYear t → t.nanos < 1000000000 → ∃ s, ReadsAs t t.wholeMillis s) := by
  constructor
  · intro n m denotes nonzero least most
    obtain ⟨t, split, years, noLeap, counted, whole⟩ := millisecondsSplit least most
    have reads := dateReadsAs years noLeap
    rw [whole] at reads
    exact ⟨t, t.text, (numberRead denotes nonzero least most).trans split, counted, reads⟩
  · intro t years noLeap
    exact ⟨t.text, dateReadsAs years noLeap⟩

theorem lastBeforeEpoch :
    (∃ t s, (Value.number (.int (-1))).toDate? = some t ∧ t.millis = -1 ∧ ReadsAs t t s) ∧
      ∃ s, ReadsAs ⟨-1, 999999999⟩ ⟨-1, 999000000⟩ s :=
  ⟨datesReadBack.1 (.int (-1)) (-1) .int (by decide) (by decide) (by decide),
    datesReadBack.2 ⟨-1, 999999999⟩ ⟨by decide, by decide⟩ (by decide)⟩

end Value
end Reshape
