import Reshape.Calendar.Reader
import Reshape.Proofs.Calendar.Stamp
import Reshape.Proofs.Text.Padding
/-! The text of a date is read back as the date it tells, as the first kind of text tried. -/
namespace Reshape.Calendar
open Instant (Stamp Tells FourDigitYear wholeMillis)
open Text (Numeral Padded)
open Text.Scan

variable {t : Instant} {day : Day} {hour minute second milli : Nat} {text : List Char}

/- The decimals end at the letter behind them, so they are taken only where it follows. -/
theorem decimalsRead {ms : List Char} (numeral : Numeral 3 milli ms) {rest : List Char}
    (stop : ∀ c ∈ rest.head?, Text.isDigit c = false) :
    optionalDecimals.run ('.' :: ms ++ rest) = some (milli * 1000000, rest) := by
  have written : (!ms.isEmpty) = true := by
    rw [Bool.not_eq_true', List.isEmpty_eq_false_iff]
    exact List.ne_nil_of_length_pos (numeral.wide ▸ by decide)
  have kept : ms.take 9 = ms := List.take_of_length_le (numeral.wide ▸ by decide)
  have value : Text.naturalOf (ms.take 9) * Nat.pow 10 (9 - (ms.take 9).length) =
      milli * 1000000 := by
    rw [kept, numeral.wide, numeral.counts]
  have behind : Takes (do
      require !ms.isEmpty
      let kept := ms.take 9
      return Text.naturalOf kept * Nat.pow 10 (9 - kept.length)) [] (milli * 1000000) := by
    rw [← value]
    exact (takesRequired written).andThen (takesNothing _)
  calc
    optionalDecimals.run ('.' :: ms ++ rest) = decimals.run (ms ++ rest) := rfl
    _ = some (milli * 1000000, rest) := by
      rw [decimals, StateT.run_bind, digitsBefore numeral.digits stop]
      exact behind rest

theorem universalRead : Takes Rfc3339.offset ['Z'] 0 :=
  fun _ => rfl

theorem stampRead (stamp : Stamp day hour minute second milli text) :
    Takes Rfc3339.scan text
      (⟨day.year.toNat, day.month, day.day⟩, ⟨hour, minute, second, milli * 1000000⟩, 0) := by
  obtain ⟨y, mo, d, h, mi, s, ms, rfl, year, month, days, hours, minutes, seconds, millis⟩ := stamp
  have stop : ∀ rest, ∀ c ∈ (['Z'] ++ rest).head?, Text.isDigit c = false := by
    rintro rest c ⟨⟩
    decide
  have dayEnds : Takes (one fun c => c = 'T' || c = 't' || c = ' ') ['T'] 'T' :=
    takesOne (by decide)
  simp only [List.append_assoc, List.cons_append]
  refine (takesNumber year).andThen <| (takesExact '-').andThen <|
    (takesNumber month).andThen <| (takesExact '-').andThen <|
    (takesNumber days).andThen <| dayEnds.andThen <|
    (takesNumber hours).andThen <| (takesExact ':').andThen <|
    (takesNumber minutes).andThen <| (takesExact ':').andThen <|
    (takesNumber seconds).andThen <| ?_
  have last : Takes (Rfc3339.offset >>= fun east => pure
      ((⟨day.year.toNat, day.month, day.day⟩, ⟨hour, minute, second, milli * 1000000⟩, east)
        : Day × Clock × Int)) (['Z'] ++ []) _ := universalRead.andThen (takesNothing _)
  exact takesBefore (fun rest => decimalsRead millis (stop rest)) last

theorem momentCounted (told : Tells t day hour minute second milli) {clock : Clock}
    (shown : clock = ⟨hour, minute, second, milli * 1000000⟩) :
    Instant.ofDayTime day clock.secondOfDay clock.fraction = t.wholeMillis := by
  have early := told.seconds
  rw [Instant.ofDayTime, wholeMillis, shown]
  simp only [Clock.secondOfDay, Clock.fraction, Instant.secondsPerDay]
  rw [if_neg (Nat.ne_of_lt early), Nat.zero_add, told.sum, ← told.millis.2,
    Nat.min_eq_left (Nat.le_of_lt_succ early)]

theorem momentRead (told : Tells t day hour minute second milli) (years : FourDigitYear t) :
    instant? day ⟨hour, minute, second, milli * 1000000⟩ 0 = some t.wholeMillis := by
  have sameYears : FourDigitYear t.wholeMillis := years
  have inside : t.wholeMillis.inRange = true := Instant.fourDigitsInRange sameYears
  have clock : (⟨hour, minute, second, milli * 1000000⟩ : Clock).isValid = true := by
    have hours := told.hours
    have minutes := told.minutes
    have seconds := told.seconds
    simp only [Clock.isValid, Bool.and_eq_true, decide_eq_true_eq]
    omega
  have least : Instant.leastYear ≤ day.year := Int.le_trans (by decide) told.year.1
  have most : day.year ≤ Instant.greatestYear := Int.le_trans told.year.2 (by decide)
  have valid := (validIff day).mpr told.valid
  simp only [instant?, Int.sub_zero, momentCounted told rfl]
  exact if_pos (by simp only [valid, least, most, clock, inside, decide_true, Bool.and_self])

theorem textTrimmed (stamp : Stamp day hour minute second milli text) : Text.trim text = text := by
  obtain ⟨y, mo, d, h, mi, s, ms, rfl, year, -⟩ := stamp
  obtain ⟨first, more, rfl⟩ : ∃ first more, y = first :: more :=
    List.exists_cons_of_length_eq_add_one year.wide
  have start : Text.isBlank first = false :=
    Text.digitNotBlank (year.digits first List.mem_cons_self)
  simp only [List.cons_append]
  exact Text.trimVisible start (by decide) _

theorem textRead (years : FourDigitYear t) (noLeap : t.nanos < 1000000000)
    (padded : Padded t.text.toList text) :
    read? (String.ofList text) = some t.wholeMillis := by
  have stamp := Instant.stamped years noLeap
  have told := Instant.tells years noLeap
  have scanned := (stampRead stamp).whole
  have day : (⟨t.day.year.toNat, t.day.month, t.day.day⟩ : Day) = t.day := by
    rw [Int.toNat_of_nonneg told.year.1]
  rw [day] at scanned
  have rfc : Rfc3339.read? t.text.toList = some t.wholeMillis := by
    rw [Rfc3339.read?, scanned]
    exact momentRead told years
  rw [read?, String.toList_ofList, padded.trimmed, textTrimmed stamp, rfc]
  rfl

end Reshape.Calendar
