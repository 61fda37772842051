import Reshape.Number.Binary64
/-! The shortest decimal that reads back as a given binary64 number. Of all decimals with the fewest
digits it is the one nearest to the number, and of two equally near ones the even one. All
comparisons are between natural numbers. -/
namespace Reshape

structure Decimal where
  digits : Nat
  exponent : Int
  deriving DecidableEq, Repr

namespace Decimal

def digitText (n : Nat) : List Char :=
  Nat.toDigits 10 n

def magnitude (x : Decimal) : Int :=
  ((digitText x.digits).length : Int) - 1 + x.exponent

def strip : Nat → Decimal → Decimal
  | 0, x => x
  | fuel + 1, x =>
    if x.digits ≠ 0 ∧ x.digits % 10 = 0 then strip fuel ⟨x.digits / 10, x.exponent + 1⟩ else x

end Decimal

namespace Binary64

def onGrid (x : Binary64) (p : Int) (quarters : Nat) : Nat :=
  quarters * Nat.pow 2 (x.exponent - 2).toNat * Nat.pow 10 (-p).toNat

def decimalOnGrid (x : Binary64) (p : Int) (d : Nat) : Nat :=
  d * Nat.pow 10 p.toNat * Nat.pow 2 (2 - x.exponent).toNat

def lowerGap (x : Binary64) : Nat :=
  if x.significand = Nat.pow 2 52 ∧ -1074 < x.exponent then 1 else 2

def readsBack (x : Binary64) (p : Int) (d : Nat) : Bool :=
  let low := x.onGrid p (4 * x.significand - x.lowerGap)
  let high := x.onGrid p (4 * x.significand + 2)
  let point := x.decimalOnGrid p d
  if x.significand % 2 = 0 then low ≤ point && point ≤ high else low < point && point < high

/-- The multiples of `10 ^ p` next to the magnitude; the better one if it reads back. -/
def onDecimalGrid? (x : Binary64) (p : Int) : Option Decimal :=
  let here := x.onGrid p (4 * x.significand)
  let unit := x.decimalOnGrid p 1
  let below := here / unit
  let above := below + 1
  let toBelow := here - x.decimalOnGrid p below
  let toAbove := x.decimalOnGrid p above - here
  match x.readsBack p below, x.readsBack p above with
  | true, true =>
    if toBelow < toAbove then some ⟨below, p⟩
    else if toAbove < toBelow then some ⟨above, p⟩
    else some ⟨below + below % 2, p⟩
  | true, false => some ⟨below, p⟩
  | false, true => some ⟨above, p⟩
  | false, false => none

def leadingPower (x : Binary64) : Int :=
  let num := x.numerator
  let den := x.denominator
  if den ≤ num then (Decimal.digitText (num / den)).length - 1
  else -((Decimal.digitText ((den - 1) / num)).length : Int)

def shortest (x : Binary64) : Decimal :=
  if x.isZero then ⟨0, 0⟩
  else
    let k := x.leadingPower
    match (List.range 17).findSome? fun n : Nat => x.onDecimalGrid? (k - n) with
    | some found => found.strip 17
    | none => ⟨x.significand, 0⟩

end Binary64
end Reshape
