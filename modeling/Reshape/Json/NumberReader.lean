import Reshape.Json.Position
import Reshape.Text.Basic
/-! Reading JSON numbers. Integers that fit 64 bits stay exact. Otherwise the digits that fit in 64
bits are scaled by one power of ten in binary64 arithmetic; that rounds twice, so the result can be
a neighbour of the nearest number. `-0` is the float zero with a sign. -/
namespace Reshape.Json
open Text (isDigit digitValue)

def greatestWord : Nat := Nat.pow 2 64 - 1
def greatestExponent : Nat := Nat.pow 2 31 - 1

def accumulate (limit start : Nat) : List Char → Nat × Nat
  | [] => (start, 0)
  | d :: rest =>
    let next := start * 10 + digitValue d
    if next ≤ limit then
      let (result, used) := accumulate limit next rest
      (result, used + 1)
    else (start, 0)

/-- `x · 10 ^ power`, by one scaling if a power of at most 308 does; `none` on overflow. -/
def scaleDecimal : Nat → Binary64 → Int → Option Binary64
  | 0, _, _ => none
  | fuel + 1, x, power =>
    if power.natAbs ≤ 308 then do
      let factor ← Binary64.pow10? power.natAbs
      if 0 ≤ power then x.mul? factor else x.div? factor
    else if x.isZero then some x
    else if 0 ≤ power then none
    else do
      let factor ← Binary64.pow10? 308
      let smaller ← x.div? factor
      scaleDecimal fuel smaller (power + 308)

def floatOfParts? (negative : Bool) (significand : Nat) (power : Int) : Option Binary64 := do
  let start ← Binary64.ofRatio? false significand 1
  let x ← scaleDecimal 4 start power
  some { x with negative }

def readParts (negative : Bool) (significand : Nat) (power : Int) (rest : List Char) :
    Reading (Number × List Char) :=
  match floatOfParts? negative significand power with
  | some x => .ok (.float x, rest)
  | none => stopAt .numberOutOfRange rest

def readExponent (negative : Bool) (significand : Nat) (power : Int) (cs : List Char) :
    Reading (Number × List Char) :=
  let (down, cs) := match cs with
    | '+' :: rest => (false, rest)
    | '-' :: rest => (true, rest)
    | _ => (false, cs)
  match cs with
  | [] => stopAt .endInValue []
  | c :: _ =>
    if !isDigit c then stopAfter .invalidNumber cs
    else
      let digits := cs.takeWhile isDigit
      let rest := cs.dropWhile isDigit
      let (shift, used) := accumulate greatestExponent 0 digits
      if used < digits.length then
        if significand ≠ 0 ∧ down = false then stopAt .numberOutOfRange (cs.drop (used + 1))
        else .ok (.float (Binary64.zero negative), rest)
      else readParts negative significand (if down then power - shift else power + shift) rest

def isExponentLetter (c : Char) : Bool :=
  c = 'e' || c = 'E'

def readScale (negative : Bool) (significand : Nat) (power : Int) (cs : List Char) :
    Reading (Number × List Char) :=
  match cs with
  | c :: rest =>
    if isExponentLetter c then readExponent negative significand power rest
    else readParts negative significand power cs
  | [] => readParts negative significand power cs

def readFraction (negative : Bool) (significand : Nat) (power : Int) (cs : List Char) :
    Reading (Number × List Char) :=
  let digits := cs.takeWhile isDigit
  let rest := cs.dropWhile isDigit
  if digits.isEmpty then
    if rest.isEmpty then stopAt .endInValue rest else stopAfter .invalidNumber rest
  else
    let (longer, used) := accumulate greatestWord significand digits
    readScale negative longer (power - used) rest

def integerNumber (negative : Bool) (significand : Nat) (rest : List Char) : Reading (Number × List Char) :=
  if !negative then .ok (.int significand, rest)
  else if 0 < significand ∧ significand ≤ Nat.pow 2 63 then .ok (.int (-(significand : Int)), rest)
  else readParts true significand 0 rest

def readTail (negative : Bool) (significand dropped : Nat) (cs : List Char) : Reading (Number × List Char) :=
  match cs with
  | '.' :: rest => readFraction negative significand dropped rest
  | _ =>
    if cs.head?.any isExponentLetter then readScale negative significand dropped cs
    else if dropped = 0 then integerNumber negative significand cs
    else readParts negative significand dropped cs

def readNumber (negative : Bool) (cs : List Char) : Reading (Number × List Char) :=
  match cs with
  | [] => stopAt .endInValue []
  | c :: rest =>
    if !isDigit c then stopAfter .invalidNumber cs
    else if c = '0' then
      if rest.head?.any isDigit then stopAfter .invalidNumber rest
      else readTail negative 0 0 rest
    else
      let digits := cs.takeWhile isDigit
      let (significand, used) := accumulate greatestWord 0 digits
      readTail negative significand (digits.length - used) (cs.dropWhile isDigit)

end Reshape.Json
