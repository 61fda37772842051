import Reshape.Calendar.Day
import Reshape.Number.Basic
/-! Points in time, in seconds from the start of 1970 UTC and nanoseconds. A fraction of a second or
more marks a leap second, which belongs to the second before it. No time zone is kept. -/
namespace Reshape

structure Instant where
  seconds : Int
  nanos : Nat
  deriving DecidableEq, Repr

namespace Instant
open Calendar (Day)

def secondsPerDay : Int := 86400

def day (t : Instant) : Day :=
  Day.ofNumber (t.seconds / secondsPerDay)

def secondOfDay (t : Instant) : Nat :=
  (t.seconds % secondsPerDay).toNat

def hour (t : Instant) : Nat :=
  t.secondOfDay / 3600

def minute (t : Instant) : Nat :=
  t.secondOfDay / 60 % 60

/-- Second of the minute; 60 in a leap second. -/
def second (t : Instant) : Nat :=
  t.secondOfDay % 60 + t.nanos / 1000000000

def fraction (t : Instant) : Nat :=
  t.nanos % 1000000000

def ofDayTime (d : Day) (secondOfDay nanos : Nat) : Instant :=
  ⟨d.number * secondsPerDay + secondOfDay, nanos⟩

def leastYear : Int := -262143
def greatestYear : Int := 262142

def inRange (t : Instant) : Bool :=
  leastYear ≤ t.day.year && t.day.year ≤ greatestYear

def ofMillis? (millis : Int) : Option Instant :=
  let t : Instant := ⟨millis / 1000, (millis % 1000).toNat * 1000000⟩
  if t.inRange then some t else none

def padded (width n : Nat) : List Char :=
  let ds := Decimal.digitText n
  List.replicate (width - ds.length) '0' ++ ds

def yearText (year : Int) : List Char :=
  if 0 ≤ year ∧ year ≤ 9999 then padded 4 year.toNat
  else (if year < 0 then '-' else '+') :: padded 4 year.natAbs

def dayText (t : Instant) : List Char :=
  yearText t.day.year ++ '-' :: padded 2 t.day.month ++ '-' :: padded 2 t.day.day

def clockText (t : Instant) : List Char :=
  padded 2 t.hour ++ ':' :: padded 2 t.minute ++ ':' :: padded 2 t.second

def text (t : Instant) : String :=
  String.ofList
    (t.dayText ++ 'T' :: t.clockText ++ '.' :: padded 3 (t.fraction / 1000000) ++ ['Z'])

def fractionText (nanos : Nat) : List Char :=
  if nanos = 0 then []
  else if nanos % 1000000 = 0 then '.' :: padded 3 (nanos / 1000000)
  else if nanos % 1000 = 0 then '.' :: padded 6 (nanos / 1000)
  else '.' :: padded 9 nanos

def exactText (t : Instant) : String :=
  String.ofList (t.dayText ++ 'T' :: t.clockText ++ fractionText t.fraction ++ ['Z'])

end Instant
end Reshape
