import Reshape.Text.Basic
import Reshape.Value.Basic
/-! References in text: two opening braces, at least one character that is no closing brace, two
closing braces. The leftmost one comes first and references never overlap. Each is a chain of
alternatives between double bars, with pipes behind single bars and parameters behind colons. Quotes
do not protect a bar or a colon. Reading never fails: what is no literal is a path. -/
namespace Reshape

inductive Param where
  | literal (value : Value)
  | path (path : String)
  deriving Repr

structure PipeCall where
  name : String
  params : List Param
  deriving Repr

inductive Target where
  /-- the whole instance scope -/
  | spread
  | literal (value : Value)
  | path (path : String)
  deriving Repr

structure Alternative where
  target : Target
  pipes : List PipeCall
  deriving Repr

structure Reference where
  alternatives : List Alternative
  deriving Repr

namespace Reference
open Text (trim splitAt splitAtPair isDigit naturalOf)

def atFront? : List Char → Option (List Char)
  | '\x7b' :: '\x7b' :: rest =>
    let body := rest.takeWhile (· ≠ '\x7d')
    match rest.drop body.length with
    | '\x7d' :: '\x7d' :: _ =>
      if body.isEmpty then none else some ('\x7b' :: '\x7b' :: body ++ ['\x7d', '\x7d'])
    | _ => none
  | _ => none

def findFrom : Nat → List Char → List (List Char)
  | _, [] => []
  | skip + 1, _ :: rest => findFrom skip rest
  | 0, c :: rest =>
    match atFront? (c :: rest) with
    | some found => found :: findFrom (found.length - 1) rest
    | none => findFrom 0 rest

def find (text : List Char) : List (List Char) :=
  findFrom 0 text

def isWhole (text : List Char) : Bool :=
  atFront? text = some text

def replaceFirst (old new : List Char) : List Char → List Char
  | [] => []
  | c :: rest =>
    if old.isPrefixOf (c :: rest) then new ++ (c :: rest).drop old.length
    else c :: replaceFirst old new rest

def literal? (token : List Char) : Option Value :=
  if 3 ≤ token.length ∧ token.head? = some '"' ∧ token.getLast? = some '"' then
    some (.string (String.ofList token.tail.dropLast))
  else if !token.isEmpty && token.all isDigit then
    let n := naturalOf token
    if (n : Int) ≤ Number.greatest64 then some (.ofNat n)
    else match Binary64.ofRatio? false n 1 with
      | some x => some (.number (.float x))
      | none => some .null
  else if token = ['t', 'r', 'u', 'e'] then some (.bool true)
  else if token = ['f', 'a', 'l', 's', 'e'] then some (.bool false)
  else none

def readParam (token : List Char) : Param :=
  match literal? token with
  | some v => .literal v
  | none => .path (String.ofList token)

def readTarget (token : List Char) : Target :=
  if token = ['.', '.', '.'] then .spread
  else match literal? token with
    | some v => .literal v
    | none => .path (String.ofList token)

def readPipe (source : List Char) : PipeCall :=
  match (splitAt ':' source).map trim with
  | [] => ⟨"", []⟩
  | name :: params => ⟨String.ofList name, params.map readParam⟩

def readAlternative (source : List Char) : Alternative :=
  match (splitAt '|' source).map trim with
  | [] => ⟨.path "", []⟩
  | target :: pipes => ⟨readTarget target, (pipes.filter (· ≠ [])).map readPipe⟩

def stripBraces (cs : List Char) : List Char :=
  match cs with
  | '\x7b' :: '\x7b' :: inner =>
    if 2 ≤ inner.length ∧ inner.drop (inner.length - 2) = ['\x7d', '\x7d'] then
      inner.take (inner.length - 2)
    else cs
  | _ => cs

def parseChars (source : List Char) : Reference :=
  ⟨(splitAtPair '|' (stripBraces (trim source))).map readAlternative⟩

def parse (source : String) : Reference :=
  parseChars source.toList

end Reference
end Reshape
