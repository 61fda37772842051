import Reshape.Number.Shortest
/-! Numbers of the value model: exact integers and binary64 numbers, kept apart. An integer and a
float are never equal here, even when they denote the same quantity. -/
namespace Reshape

inductive Number where
  | int (value : Int)
  | float (value : Binary64)
  deriving DecidableEq, Repr

namespace Number

def same : Number → Number → Bool
  | .int a, .int b => a = b
  | .float a, .float b => a.same b
  | _, _ => false

def isZero : Number → Bool
  | .int i => i = 0
  | .float x => x.isZero

def least64 : Int := -Int.pow 2 63
def greatest64 : Int := Int.pow 2 63 - 1

def asInt64? : Number → Option Int
  | .int i => if least64 ≤ i ∧ i ≤ greatest64 then some i else none
  | .float _ => none

def asBinary64? : Number → Option Binary64
  | .int i => Binary64.ofInt? i
  | .float x => some x

structure Layout where
  lowest : Int
  above : Int
  deriving DecidableEq, Repr

/-- Numbers below 10^16 and not below 10^-5 are positional, all others have a signed exponent. -/
def layout : Layout := ⟨-5, 16⟩

def zeros (n : Nat) : List Char :=
  List.replicate n '0'

def intText (i : Int) : List Char :=
  if i < 0 then '-' :: Decimal.digitText i.natAbs else Decimal.digitText i.natAbs

def positional (x : Decimal) : List Char :=
  let ds := Decimal.digitText x.digits
  if 0 ≤ x.exponent then ds ++ zeros x.exponent.toNat ++ ['.', '0']
  else if 0 ≤ x.magnitude then
    let whole := (x.magnitude + 1).toNat
    ds.take whole ++ '.' :: ds.drop whole
  else ['0', '.'] ++ zeros (-x.magnitude - 1).toNat ++ ds

def scientific (x : Decimal) : List Char :=
  let power := x.magnitude
  let mantissa := match Decimal.digitText x.digits with
    | d :: e :: rest => d :: '.' :: e :: rest
    | short => short
  mantissa ++ 'e' :: (if power < 0 then '-' else '+') :: Decimal.digitText power.natAbs

def floatText (x : Binary64) : List Char :=
  let d := x.shortest
  let body :=
    if layout.lowest ≤ d.magnitude ∧ d.magnitude < layout.above then positional d else scientific d
  if x.negative then '-' :: body else body

def text : Number → String
  | .int i => String.ofList (intText i)
  | .float x => String.ofList (floatText x)

end Number
end Reshape
