import Reshape.Json.Position
import Reshape.Text.Basic
/-! Reading JSON strings behind the opening quote. A pair of escaped surrogates is one character;
any other escaped surrogate stops the reader. -/
namespace Reshape.Json

def hexValue? (c : Char) : Option Nat :=
  if Text.isDigit c then some (Text.digitValue c)
  else if 'a' ≤ c ∧ c ≤ 'f' then some (c.toNat - 'a'.toNat + 10)
  else if 'A' ≤ c ∧ c ≤ 'F' then some (c.toNat - 'A'.toNat + 10)
  else none

def hexWord? : List Char → Option Nat
  | [a, b, c, d] => do
    let a ← hexValue? a
    let b ← hexValue? b
    let c ← hexValue? c
    let d ← hexValue? d
    some (a * 4096 + b * 256 + c * 16 + d)
  | _ => none

def readHex (cs : List Char) : Reading (Nat × List Char) :=
  if byteLength (cs.take 4) < 4 then stopAt .endInString []
  else match hexWord? (cs.take 4) with
    | some n => .ok (n, cs.drop 4)
    | none => .error ⟨.invalidEscape, cs, 4⟩

def isHighSurrogate (n : Nat) : Bool :=
  0xD800 ≤ n && n ≤ 0xDBFF

def isLowSurrogate (n : Nat) : Bool :=
  0xDC00 ≤ n && n ≤ 0xDFFF

def readPairMark (cs : List Char) : Reading (Unit × List Char) :=
  match cs with
  | [] => stopAt .endInString []
  | '\\' :: 'u' :: rest => .ok ((), rest)
  | ['\\'] => stopAt .endInString []
  | '\\' :: rest => stopAfter .unfinishedEscape rest
  | _ => stopAfter .unfinishedEscape cs

def readCodePoint (cs : List Char) : Reading (Char × Nat) := do
  let (n, rest) ← readHex cs
  if isLowSurrogate n then stopAt .loneSurrogate rest
  else if isHighSurrogate n then
    let (_, rest) ← readPairMark rest
    let (m, rest) ← readHex rest
    if isLowSurrogate m then
      .ok (Char.ofNat ((n - 0xD800) * 1024 + (m - 0xDC00) + 0x10000), 10)
    else stopAt .loneSurrogate rest
  else .ok (Char.ofNat n, 4)

def simpleEscape? (c : Char) : Option Char :=
  if c = '"' then some '"'
  else if c = '\\' then some '\\'
  else if c = '/' then some '/'
  else if c = 'b' then some '\x08'
  else if c = 'f' then some '\x0c'
  else if c = 'n' then some '\n'
  else if c = 'r' then some '\r'
  else if c = 't' then some '\t'
  else none

def readEscape (cs : List Char) : Reading (Char × Nat) :=
  match cs with
  | [] => stopAt .endInString []
  | c :: rest =>
    if c = 'u' then (readCodePoint rest).map fun (e, used) => (e, used + 1)
    else match simpleEscape? c with
      | some e => .ok (e, 1)
      | none => stopAfter .invalidEscape cs

def readCharacters : Nat → List Char → Reading (List Char × List Char)
  | _, [] => stopAt .endInString []
  | skip + 1, _ :: rest => readCharacters skip rest
  | 0, c :: rest =>
    if c = '"' then .ok ([], rest)
    else if c = '\\' then do
      let (e, used) ← readEscape rest
      let (text, rest) ← readCharacters used rest
      .ok (e :: text, rest)
    else if c.toNat < 0x20 then stopAfter .controlCharacter (c :: rest)
    else do
      let (text, rest) ← readCharacters 0 rest
      .ok (c :: text, rest)

def readString (cs : List Char) : Reading (String × List Char) := do
  let (text, rest) ← readCharacters 0 cs
  .ok (String.ofList text, rest)

end Reshape.Json
