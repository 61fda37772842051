import Reshape.Json.Basic
/-! Where reading stopped and why. Positions count bytes of the text's UTF-8 form, also inside a
character; lines count from one, columns from zero at the start of a line. -/
namespace Reshape.Json

inductive Cause where
  | endInList
  | endInObject
  | endInString
  | endInValue
  | expectedColon
  | expectedListEnd
  | expectedObjectEnd
  | expectedWord
  | expectedValue
  | invalidEscape
  | invalidNumber
  | numberOutOfRange
  | controlCharacter
  | keyNotString
  | loneSurrogate
  | trailingComma
  | trailingCharacters
  | unfinishedEscape
  | tooDeep
  deriving DecidableEq, Repr

def Cause.text : Cause → String
  | .endInList => "EOF while parsing a list"
  | .endInObject => "EOF while parsing an object"
  | .endInString => "EOF while parsing a string"
  | .endInValue => "EOF while parsing a value"
  | .expectedColon => "expected \x60:\x60"
  | .expectedListEnd => "expected \x60,\x60 or \x60]\x60"
  | .expectedObjectEnd => "expected \x60,\x60 or \x60\x7d\x60"
  | .expectedWord => "expected ident"
  | .expectedValue => "expected value"
  | .invalidEscape => "invalid escape"
  | .invalidNumber => "invalid number"
  | .numberOutOfRange => "number out of range"
  | .controlCharacter => "control character (\\u0000-\\u001F) found while parsing a string"
  | .keyNotString => "key must be a string"
  | .loneSurrogate => "lone leading surrogate in hex escape"
  | .trailingComma => "trailing comma"
  | .trailingCharacters => "trailing characters"
  | .unfinishedEscape => "unexpected end of hex escape"
  | .tooDeep => "recursion limit exceeded"

structure Stop where
  cause : Cause
  unread : List Char
  skip : Nat
  deriving DecidableEq, Repr

structure SyntaxError where
  cause : Cause
  line : Nat
  column : Nat
  deriving DecidableEq, Repr

def SyntaxError.message (e : SyntaxError) : String :=
  e.cause.text ++ " at line " ++ toString e.line ++ " column " ++ toString e.column

def byteLength (cs : List Char) : Nat :=
  cs.foldr (fun c n => c.utf8Size + n) 0

def advance (line column : Nat) : List Char → Nat → Nat × Nat
  | [], _ => (line, column)
  | c :: rest, budget =>
    if budget < c.utf8Size then (line, column + budget)
    else if c = '\n' then advance (line + 1) 0 rest (budget - c.utf8Size)
    else advance line (column + c.utf8Size) rest (budget - c.utf8Size)

def Stop.locate (stop : Stop) (text : List Char) : SyntaxError :=
  let consumed := byteLength text - byteLength stop.unread
  let (line, column) := advance 1 0 text (consumed + stop.skip)
  ⟨stop.cause, line, column⟩

abbrev Reading := Except Stop

def stopAt {α : Type} (cause : Cause) (unread : List Char) : Reading α :=
  .error ⟨cause, unread, 0⟩

def stopAfter {α : Type} (cause : Cause) (unread : List Char) : Reading α :=
  .error ⟨cause, unread, 1⟩

end Reshape.Json
