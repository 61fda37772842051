import Reshape.Json.NumberReader
import Reshape.Json.TextReader
/-! Reading JSON documents. At most 127 containers may be open at once. Of a repeated name the last
value counts, at the place of the first. What is reported is the first fault from the left. -/
namespace Reshape.Json

def isBlank (c : Char) : Bool :=
  c = ' ' || c = '\n' || c = '\t' || c = '\r'

def skipBlanks (cs : List Char) : List Char :=
  cs.dropWhile isBlank

def readWord (value : Json) : List Char → List Char → Reading (Json × List Char)
  | [], cs => .ok (value, cs)
  | _ :: _, [] => stopAt .endInValue []
  | w :: word, c :: cs => if c = w then readWord value word cs else stopAfter .expectedWord (c :: cs)

def readColon (cs : List Char) : Reading (Unit × List Char) :=
  match skipBlanks cs with
  | [] => stopAt .endInObject []
  | c :: rest => if c = ':' then .ok ((), rest) else stopAfter .expectedColon (c :: rest)

def readNameStart (behindComma : Bool) (cs : List Char) : Reading (Unit × List Char) :=
  match cs with
  | [] => stopAt (if behindComma then .endInValue else .endInObject) []
  | c :: rest =>
    if c = '"' then .ok ((), rest)
    else if behindComma && c = '\x7d' then stopAfter .trailingComma cs
    else stopAfter .keyNotString cs

def readScalar (c : Char) (rest : List Char) : Reading (Json × List Char) :=
  if c = 'n' then readWord .null ['u', 'l', 'l'] rest
  else if c = 't' then readWord (.bool true) ['r', 'u', 'e'] rest
  else if c = 'f' then readWord (.bool false) ['a', 'l', 's', 'e'] rest
  else if c = '-' then (readNumber true rest).map fun (n, rest) => (.number n, rest)
  else if Text.isDigit c then (readNumber false (c :: rest)).map fun (n, rest) => (.number n, rest)
  else if c = '"' then (readString rest).map fun (s, rest) => (.string s, rest)
  else stopAfter .expectedValue (c :: rest)

mutual

/-- `levels` containers may still be opened. Every call below uses fuel or a character. -/
def readValue : Nat → Nat → List Char → Reading (Json × List Char)
  | 0, _, _ => stopAt .tooDeep []
  | fuel + 1, levels, cs =>
    match skipBlanks cs with
    | [] => stopAt .endInValue []
    | c :: rest =>
      if c = '[' then
        match levels with
        | 0 => stopAfter .tooDeep (c :: rest)
        | levels + 1 => do
          let (items, rest) ← readItems fuel levels true rest
          .ok (.array items, rest)
      else if c = '\x7b' then
        match levels with
        | 0 => stopAfter .tooDeep (c :: rest)
        | levels + 1 => do
          let (members, rest) ← readMembers fuel levels true rest
          .ok (.object (Entries.ofList members), rest)
      else readScalar c rest

def readItems : Nat → Nat → Bool → List Char → Reading (List Json × List Char)
  | 0, _, _, _ => stopAt .tooDeep []
  | fuel + 1, levels, first, cs =>
    match skipBlanks cs with
    | [] => stopAt .endInList []
    | c :: rest =>
      if c = ']' then .ok ([], rest)
      else if first then do
        let (item, rest) ← readValue fuel levels (c :: rest)
        let (items, rest) ← readItems fuel levels false rest
        .ok (item :: items, rest)
      else if c = ',' then
        match skipBlanks rest with
        | [] => stopAt .endInValue []
        | d :: rest =>
          if d = ']' then stopAfter .trailingComma (d :: rest)
          else do
            let (item, rest) ← readValue fuel levels (d :: rest)
            let (items, rest) ← readItems fuel levels false rest
            .ok (item :: items, rest)
      else stopAfter .expectedListEnd (c :: rest)

def readMembers : Nat → Nat → Bool → List Char → Reading (List (String × Json) × List Char)
  | 0, _, _, _ => stopAt .tooDeep []
  | fuel + 1, levels, first, cs =>
    match skipBlanks cs with
    | [] => stopAt .endInObject []
    | c :: rest =>
      if c = '\x7d' then .ok ([], rest)
      else if !first && c ≠ ',' then stopAfter .expectedObjectEnd (c :: rest)
      else do
        let (_, rest) ←
          if first then readNameStart false (c :: rest) else readNameStart true (skipBlanks rest)
        let (name, rest) ← readString rest
        let (_, rest) ← readColon rest
        let (value, rest) ← readValue fuel levels rest
        let (members, rest) ← readMembers fuel levels false rest
        .ok ((name, value) :: members, rest)

end

def deepest : Nat := 127

def readDocument (cs : List Char) : Reading Json := do
  let (value, rest) ← readValue (2 * cs.length + 2) deepest cs
  match skipBlanks rest with
  | [] => .ok value
  | rest => stopAfter .trailingCharacters rest

def parse (text : String) : Except SyntaxError Json :=
  let cs := text.toList
  (readDocument cs).mapError (·.locate cs)

end Reshape.Json
