import Reshape.Calendar.Instant
import Reshape.Text.Scan
/-! Reading dates from text. Three kinds of text are tried in order: RFC 3339 with an offset, local
forms read as UTC, and RFC 2822. Two-digit years exist in the last kind only. -/
namespace Reshape.Calendar
open Text (Scan naturalOf)
open Text.Scan

structure Clock where
  hour : Nat
  minute : Nat
  second : Nat
  nanos : Nat
  deriving DecidableEq, Repr

def Clock.isValid (c : Clock) : Bool :=
  c.hour ≤ 23 && c.minute ≤ 59 && c.second ≤ 60

def Clock.secondOfDay (c : Clock) : Nat :=
  c.hour * 3600 + c.minute * 60 + min c.second 59

def Clock.fraction (c : Clock) : Nat :=
  (if c.second = 60 then 1000000000 else 0) + c.nanos

def instant? (day : Day) (clock : Clock) (offset : Int) : Option Instant :=
  let here := Instant.ofDayTime day clock.secondOfDay clock.fraction
  let t : Instant := ⟨here.seconds - offset, here.nanos⟩
  if day.isValid && Instant.leastYear ≤ day.year && day.year ≤ Instant.greatestYear
      && clock.isValid && t.inRange then some t
  else none

def decimals : Scan Nat := do
  let ds ← allDigits
  require !ds.isEmpty
  let kept := ds.take 9
  return naturalOf kept * Nat.pow 10 (9 - kept.length)

def optionalDecimals : Scan Nat := do
  if ← taken '.' then decimals else return 0

def offsetDigits (colon : Bool) : Scan Nat := do
  let hours ← number 2 2
  if colon then exact ':'
  let minutes ← number 2 2
  require (minutes ≤ 59)
  return hours * 3600 + minutes * 60

def signedOffset (colon : Bool) (isMinus : Char → Bool) : Scan Int := do
  let sign ← one fun c => c = '+' || isMinus c
  let size ← offsetDigits colon
  require (size < 86400)
  return if sign = '+' then size else -size

namespace Rfc3339

def isMinus (c : Char) : Bool :=
  c = '-' || c = '\u2212'

def offset : Scan Int := do
  if (← rest).head?.any fun c => c = 'Z' || c = 'z' then
    let _ ← one fun _ => true
    return 0
  else signedOffset true isMinus

def scan : Scan (Day × Clock × Int) := do
  let year ← number 4 4
  exact '-'
  let month ← number 2 2
  exact '-'
  let day ← number 2 2
  let _ ← one fun c => c = 'T' || c = 't' || c = ' '
  let hour ← number 2 2
  exact ':'
  let minute ← number 2 2
  exact ':'
  let second ← number 2 2
  let nanos ← optionalDecimals
  let east ← offset
  return (⟨year, month, day⟩, ⟨hour, minute, second, nanos⟩, east)

def read? (cs : List Char) : Option Instant := do
  let (day, clock, east) ← scan.all cs
  instant? day clock east

end Rfc3339

namespace Local

def part : Scan Nat := do
  blanks
  number 1 2

def year : Scan Int := do
  blanks
  if ← taken '-' then
    let ds ← allDigits
    require !ds.isEmpty
    return -(naturalOf ds : Int)
  else if ← taken '+' then
    let ds ← allDigits
    require !ds.isEmpty
    return naturalOf ds
  else
    return ← number 1 4

def day : Scan Day := do
  let year ← year
  exact '-'
  let month ← part
  exact '-'
  let day ← part
  return ⟨year, month, day⟩

def clock (seconds : Bool) : Scan Clock := do
  let hour ← part
  exact ':'
  let minute ← part
  if seconds then
    exact ':'
    let second ← part
    let nanos ← optionalDecimals
    return ⟨hour, minute, second, nanos⟩
  else return ⟨hour, minute, 0, 0⟩

def dayAndClock (seconds : Bool) : Scan (Day × Clock) := do
  let day ← day
  exact 'T'
  let clock ← clock seconds
  return (day, clock)

def read? (cs : List Char) : Option Instant :=
  let withClock (seconds : Bool) : Option Instant := do
    let (day, clock) ← (dayAndClock seconds).all cs
    instant? day clock 0
  let dayOnly : Option Instant := do
    instant? (← day.all cs) ⟨0, 0, 0, 0⟩ 0
  withClock true <|> withClock false <|> dayOnly

end Local

namespace Rfc2822

def lower (c : Char) : Char :=
  c.toLower

def name (names : List (List Char)) : Scan Nat := fun cs =>
  match names.findIdx? (· = (cs.take 3).map lower) with
  | some i => some (i, cs.drop 3)
  | none => none

def weekdays : List (List Char) :=
  ["mon", "tue", "wed", "thu", "fri", "sat", "sun"].map String.toList

def months : List (List Char) :=
  ["jan", "feb", "mar", "apr", "may", "jun", "jul", "aug", "sep", "oct", "nov", "dec"].map
    String.toList

def weekday? : Scan (Option Nat) := fun cs =>
  match (name weekdays).run cs with
  | some (i, ',' :: after) => some (some i, after)
  | some _ => none
  | none => some (none, cs)

/-- Two digits belong to 1950 to 2049, three count from 1900. -/
def year : Scan Nat := do
  let ds ← allDigits
  require (2 ≤ ds.length)
  let n := naturalOf ds
  return match ds.length with
    | 2 => if n ≤ 49 then n + 2000 else n + 1900
    | 3 => n + 1900
    | _ => n

def isLetter (c : Char) : Bool :=
  ('a' ≤ c && c ≤ 'z') || ('A' ≤ c && c ≤ 'Z')

def zoneHours? (zone : String) : Option Int :=
  match zone with
  | "gmt" | "ut" | "z" => some 0
  | "edt" => some (-4)
  | "est" | "cdt" => some (-5)
  | "cst" | "mdt" => some (-6)
  | "mst" | "pdt" => some (-7)
  | "pst" => some (-8)
  | _ => if zone.length = 1 && zone ≠ "j" then some 0 else none

def zone : Scan Int := fun cs =>
  let letters := cs.takeWhile isLetter
  if letters.isEmpty then (signedOffset false (· = '-')).run cs
  else match zoneHours? (String.ofList (letters.map lower)) with
    | some hours => some (hours * 3600, cs.dropWhile isLetter)
    | none => none

def afterComment (depth : Nat) : List Char → Option (List Char)
  | [] => none
  | '\\' :: _ :: rest => afterComment depth rest
  | c :: rest =>
    if c = '(' then afterComment (depth + 1) rest
    else if c = ')' then (if depth = 0 then some rest else afterComment (depth - 1) rest)
    else afterComment depth rest

def dropComments : Nat → List Char → List Char
  | 0, cs => cs
  | fuel + 1, cs =>
    match Text.trimStart cs with
    | '(' :: rest =>
      match afterComment 0 rest with
      | some after => dropComments fuel after
      | none => cs
    | _ => cs

def scan : Scan (Option Nat × Day × Clock × Int) := do
  blanks
  let weekday ← weekday?
  blanks
  let day ← number 1 2
  someBlanks
  let month ← name months
  someBlanks
  let year ← year
  someBlanks
  let hour ← number 2 2
  blanks
  exact ':'
  blanks
  let minute ← number 2 2
  let second ←
    if (Text.trimStart (← rest)).head? = some ':' then
      blanks
      exact ':'
      number 2 2
    else pure 0
  someBlanks
  let east ← zone
  modify fun cs => dropComments cs.length cs
  return (weekday, ⟨year, month + 1, day⟩, ⟨hour, minute, second, 0⟩, east)

def read? (cs : List Char) : Option Instant := do
  let (weekday, day, clock, east) ← scan.all cs
  if weekday.all (· = day.weekday) then instant? day clock east else none

end Rfc2822

def read? (text : String) : Option Instant :=
  let cs := Text.trim text.toList
  Rfc3339.read? cs <|> Local.read? cs <|> Rfc2822.read? cs

end Reshape.Calendar
