import Reshape.Text.Basic
/-! Small readers over characters: each takes from the front of the text or fails. Failing says
nothing about why. -/
namespace Reshape.Text

abbrev Scan := StateT (List Char) Option

namespace Scan

def all {α : Type} (scan : Scan α) (cs : List Char) : Option α :=
  match scan.run cs with
  | some (a, []) => some a
  | _ => none

def fail {α : Type} : Scan α := fun _ => none

def rest : Scan (List Char) := fun cs => some (cs, cs)

def require (ok : Bool) : Scan Unit :=
  if ok then pure () else fail

def one (ok : Char → Bool) : Scan Char
  | c :: cs => if ok c then some (c, cs) else none
  | [] => none

def exact (c : Char) : Scan Unit := do
  let _ ← one (· = c)

def taken (c : Char) : Scan Bool
  | d :: cs => if d = c then some (true, cs) else some (false, d :: cs)
  | [] => some (false, [])

def blanks : Scan Unit := fun cs => some ((), trimStart cs)

def someBlanks : Scan Unit := do
  let _ ← one isBlank
  blanks

def digitsUpTo (most : Nat) : Scan (List Char) := fun cs =>
  let ds := (cs.take most).takeWhile isDigit
  some (ds, cs.drop ds.length)

def allDigits : Scan (List Char) := fun cs =>
  some (cs.takeWhile isDigit, cs.dropWhile isDigit)

def number (least most : Nat) : Scan Nat := do
  let ds ← digitsUpTo most
  require (least ≤ ds.length)
  return naturalOf ds

end Scan
end Reshape.Text
