import Reshape.Calendar.Instant
import Reshape.Proofs.Calendar.Days
import Reshape.Proofs.Text.Scanned
/-! What the text of a date says. In the years 0 to 9999 it has one layout of fixed width, and its
numbers are the day and the time of day that make up the date, to the millisecond. -/
namespace Reshape.Instant
open Calendar
open Text (Numeral)

def yearStart (year : Int) : Int :=
  (Day.mk year 1 1).number * secondsPerDay

def FourDigitYear (t : Instant) : Prop :=
  yearStart 0 ≤ t.seconds ∧ t.seconds < yearStart 10000

def millis (t : Instant) : Int :=
  t.seconds * 1000 + (t.nanos / 1000000 : Nat)

def wholeMillis (t : Instant) : Instant :=
  ⟨t.seconds, t.nanos / 1000000 * 1000000⟩

structure Tells (t : Instant) (day : Day) (hour minute second milli : Nat) : Prop where
  valid : day.Valid
  year : 0 ≤ day.year ∧ day.year ≤ 9999
  hours : hour < 24
  minutes : minute < 60
  seconds : second < 60
  sum : t.seconds = day.number * 86400 + (hour * 3600 + minute * 60 + second : Nat)
  millis : milli < 1000 ∧ milli = t.nanos / 1000000

/- Text of the form `YYYY-MM-DDTHH:MM:SS.mmmZ`. -/
def Stamp (day : Day) (hour minute second milli : Nat) (text : List Char) : Prop :=
  ∃ y mo d h mi s ms : List Char,
    text = y ++ '-' :: mo ++ '-' :: d ++ 'T' :: h ++ ':' :: mi ++ ':' :: s ++ '.' :: ms ++ ['Z'] ∧
    Numeral 4 day.year.toNat y ∧ Numeral 2 day.month mo ∧ Numeral 2 day.day d ∧
    Numeral 2 hour h ∧ Numeral 2 minute mi ∧ Numeral 2 second s ∧ Numeral 3 milli ms

variable {t : Instant}

theorem fourDigitYear : FourDigitYear t ↔ 0 ≤ t.day.year ∧ t.day.year ≤ 9999 := by
  have first : 0 ≤ t.day.year ↔ daysBeforeYear 0 ≤ t.seconds / secondsPerDay + epoch := yearReached
  have later : 10000 ≤ t.day.year ↔ daysBeforeYear 10000 ≤ t.seconds / secondsPerDay + epoch :=
    yearReached
  have start : yearStart 0 = -62167219200 := by decide
  have stop : yearStart 10000 = 253402300800 := by decide
  have before : daysBeforeYear 0 = -366 := by decide
  have behind : daysBeforeYear 10000 = 3652059 := by decide
  rw [FourDigitYear, start, stop]
  rw [before] at first
  rw [behind] at later
  simp only [secondsPerDay, epoch] at first later
  omega

theorem fourDigitsInRange (years : FourDigitYear t) : t.inRange = true := by
  obtain ⟨first, last⟩ := fourDigitYear.mp years
  have least : leastYear ≤ t.day.year := Int.le_trans (by decide) first
  have most : t.day.year ≤ greatestYear := Int.le_trans last (by decide)
  simp only [inRange, least, most, decide_true, Bool.and_self]

theorem paddedNumeral {width n : Nat} (some : 0 < width) (small : n < Nat.pow 10 width) :
    Numeral width n (padded width n) := by
  have short : (Nat.toDigits 10 n).length ≤ width :=
    (Nat.length_toDigits_le_iff (by decide) some).mpr small
  refine ⟨?_, ?_, ?_⟩
  · simp only [padded, Decimal.digitText, List.length_append, List.length_replicate]
    omega
  · intro c member
    rcases List.mem_append.mp member with zero | digit
    · rw [List.eq_of_mem_replicate zero]
      decide
    · exact Text.digitsAreDigits digit
  · rw [Text.naturalOf, Text.naturalOfFrom, padded, Nat.ofDigitChars_append,
      Nat.ofDigitChars_replicate_zero, Nat.mul_zero]
    exact Nat.ofDigitChars_ten_toDigits

theorem monthsBound {day : Day} (valid : day.Valid) : day.month ≤ 12 ∧ day.day ≤ 31 := by
  obtain ⟨-, -, length, place, inside⟩ := valid
  have few : (monthLengths (isLeap day.year)).length = 12 := rfl
  have short : ∀ leap, ∀ length ∈ monthLengths leap, length ≤ 31 := by decide
  have room := (List.getElem?_eq_some_iff.mp place).choose
  have most := short _ length (List.mem_of_getElem? place)
  omega

theorem tells (years : FourDigitYear t) (noLeap : t.nanos < 1000000000) :
    Tells t t.day t.hour t.minute t.second (t.fraction / 1000000) := by
  obtain ⟨valid, counted⟩ := dayFound (t.seconds / secondsPerDay)
  have days : t.day.number = t.seconds / secondsPerDay := counted
  have inDay : t.seconds % secondsPerDay = (t.secondOfDay : Int) := by
    simp only [secondOfDay, secondsPerDay]
    omega
  have short : t.secondOfDay < 86400 := by
    simp only [secondOfDay, secondsPerDay]
    omega
  have split := Int.mul_ediv_add_emod t.seconds secondsPerDay
  simp only [secondsPerDay] at days inDay split
  refine ⟨valid, fourDigitYear.mp years, ?_, ?_, ?_, ?_, ?_⟩ <;>
    simp only [hour, minute, second, fraction] <;> omega

theorem stamped (years : FourDigitYear t) (noLeap : t.nanos < 1000000000) :
    Stamp t.day t.hour t.minute t.second (t.fraction / 1000000) t.text.toList := by
  have told := tells years noLeap
  obtain ⟨months, days⟩ := monthsBound told.valid
  obtain ⟨least, most⟩ := told.year
  have year : yearText t.day.year = padded 4 t.day.year.toNat := if_pos ⟨least, most⟩
  have hours := told.hours
  have minutes := told.minutes
  have seconds := told.seconds
  have millis := told.millis.1
  have twoDigits : Nat.pow 10 2 = 100 := rfl
  have threeDigits : Nat.pow 10 3 = 1000 := rfl
  have fourDigits : Nat.pow 10 4 = 10000 := rfl
  refine ⟨padded 4 t.day.year.toNat, padded 2 t.day.month, padded 2 t.day.day, padded 2 t.hour,
    padded 2 t.minute, padded 2 t.second, padded 3 (t.fraction / 1000000), ?_, ?_⟩
  · rw [text, String.toList_ofList, dayText, clockText, year]
    simp only [List.append_assoc, List.cons_append]
  · refine ⟨?_, ?_, ?_, ?_, ?_, ?_, ?_⟩ <;> apply paddedNumeral <;> omega

example : (Instant.mk (-1) 999999999).text = "1969-12-31T23:59:59.999Z" := by decide +kernel

theorem Stamp.notEmpty {day : Day} {hour minute second milli : Nat} {text : List Char}
    (stamp : Stamp day hour minute second milli text) : text ≠ [] := by
  obtain ⟨y, mo, d, h, mi, s, ms, rfl, -⟩ := stamp
  exact List.append_ne_nil_of_right_ne_nil _ (List.cons_ne_nil _ _)

end Reshape.Instant
