/-! Finite binary64 numbers as exact values, and rounding to them. A number is a sign, a significand
and a power of two in the one canonical form, so equal numbers have equal fields; zero has two
signs. There are no infinities and no NaN: an operation that would overflow answers `none`. -/
namespace Reshape

/-- The canonical forms: normal numbers have 53 bits, smaller ones the least exponent. -/
def Binary64.Canonical (significand : Nat) (exponent : Int) : Prop :=
  significand < Nat.pow 2 53 ∧ -1074 ≤ exponent ∧ exponent ≤ 971 ∧
    (Nat.pow 2 52 ≤ significand ∨ exponent = -1074)

instance (significand : Nat) (exponent : Int) :
    Decidable (Binary64.Canonical significand exponent) := by
  unfold Binary64.Canonical
  infer_instance

structure Binary64 where
  negative : Bool
  significand : Nat
  exponent : Int
  canonical : Binary64.Canonical significand exponent
  deriving DecidableEq, Repr

namespace Binary64

def zero (negative : Bool) : Binary64 :=
  ⟨negative, 0, -1074, by decide⟩

def isZero (x : Binary64) : Bool :=
  x.significand = 0

def same (x y : Binary64) : Bool :=
  x = y || (x.isZero && y.isZero)

def ofMagnitude? (negative : Bool) (significand : Nat) (exponent : Int) : Option Binary64 :=
  if h : Canonical significand exponent then some ⟨negative, significand, exponent, h⟩ else none

def roundQuotient (num den : Nat) : Nat :=
  let q := num / den
  let r := num % den
  if 2 * r < den then q
  else if den < 2 * r then q + 1
  else q + q % 2

def scaleOf (num den : Nat) : Int :=
  let guess : Int := (num.log2 : Int) - (den.log2 : Int) - 52
  let tight :=
    if num * Nat.pow 2 (-guess).toNat < den * Nat.pow 2 guess.toNat * Nat.pow 2 52 then guess - 1
    else guess
  max tight (-1074)

def ofRatio? (negative : Bool) (num den : Nat) : Option Binary64 :=
  if num = 0 then some (zero negative)
  else
    let e := scaleOf num den
    let q := roundQuotient (num * Nat.pow 2 (-e).toNat) (den * Nat.pow 2 e.toNat)
    if q = Nat.pow 2 53 then ofMagnitude? negative (Nat.pow 2 52) (e + 1)
    else ofMagnitude? negative q e

def ofInt? (i : Int) : Option Binary64 :=
  ofRatio? (i < 0) i.natAbs 1

def numerator (x : Binary64) : Nat :=
  x.significand * Nat.pow 2 x.exponent.toNat

def denominator (x : Binary64) : Nat :=
  Nat.pow 2 (-x.exponent).toNat

def mul? (x y : Binary64) : Option Binary64 :=
  ofRatio? (x.negative != y.negative) (x.numerator * y.numerator) (x.denominator * y.denominator)

def div? (x y : Binary64) : Option Binary64 :=
  if y.isZero then none
  else
    ofRatio? (x.negative != y.negative)
      (x.numerator * y.denominator) (x.denominator * y.numerator)

def pow10? (k : Nat) : Option Binary64 :=
  ofRatio? false (Nat.pow 10 k) 1

def truncate (x : Binary64) : Int :=
  let magnitude : Int := (x.numerator / x.denominator : Nat)
  if x.negative then -magnitude else magnitude

end Binary64
end Reshape
