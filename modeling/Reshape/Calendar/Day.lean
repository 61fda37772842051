/-! Days of the proleptic Gregorian calendar, counted from 1 January 1970. Years are astronomical:
year 0 is a leap year and precedes year 1. -/
namespace Reshape.Calendar

structure Day where
  year : Int
  month : Nat
  day : Nat
  deriving DecidableEq, Repr

def isLeap (year : Int) : Bool :=
  year % 4 = 0 && (year % 100 ≠ 0 || year % 400 = 0)

def monthLengths (leap : Bool) : List Nat :=
  [31, if leap then 29 else 28, 31, 30, 31, 30, 31, 31, 30, 31, 30, 31]

def daysBeforeYear (year : Int) : Int :=
  let y := year - 1
  365 * y + y / 4 - y / 100 + y / 400

def epoch : Int := 719162

def Day.Valid (d : Day) : Prop :=
  1 ≤ d.month ∧ 1 ≤ d.day ∧
    ∃ length, (monthLengths (isLeap d.year))[d.month - 1]? = some length ∧ d.day ≤ length

def Day.isValid (d : Day) : Bool :=
  1 ≤ d.month && 1 ≤ d.day &&
    match (monthLengths (isLeap d.year))[d.month - 1]? with
    | some length => d.day ≤ length
    | none => false

def Day.ordinal (d : Day) : Nat :=
  ((monthLengths (isLeap d.year)).take (d.month - 1)).foldr (· + ·) 0 + (d.day - 1)

def Day.number (d : Day) : Int :=
  daysBeforeYear d.year + d.ordinal - epoch

def locate (month : Nat) : List Nat → Nat → Nat × Nat
  | [], n => (month, n + 1)
  | length :: rest, n => if n < length then (month, n + 1) else locate (month + 1) rest (n - length)

/-- The year that holds the day `n` days after 1 January of year 1: an estimate from the mean length
of a year is off by at most one. -/
def yearOf (n : Int) : Int :=
  let guess := 400 * n / 146097 + 1
  if n < daysBeforeYear guess then guess - 1
  else if daysBeforeYear (guess + 1) ≤ n then guess + 1
  else guess

def Day.ofNumber (number : Int) : Day :=
  let n := number + epoch
  let year := yearOf n
  let (month, day) := locate 1 (monthLengths (isLeap year)) (n - daysBeforeYear year).toNat
  ⟨year, month, day⟩

def Day.weekday (d : Day) : Nat :=
  ((d.number + 3) % 7).toNat

end Reshape.Calendar
