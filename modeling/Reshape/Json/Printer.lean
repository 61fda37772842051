import Reshape.Json.Basic
import Reshape.Text.Quoted
/-! JSON text. The compact form has no blanks; the indented form puts each item and member on a line
of its own, two blanks deeper than its container, and keeps empty containers closed. Only quotes,
backslashes and control characters below the space are escaped. -/
namespace Reshape.Json

def escapeChar (c : Char) : List Char :=
  if c = '"' then ['\\', '"']
  else if c = '\\' then ['\\', '\\']
  else if c = '\n' then ['\\', 'n']
  else if c = '\r' then ['\\', 'r']
  else if c = '\t' then ['\\', 't']
  else if c = '\x08' then ['\\', 'b']
  else if c = '\x0c' then ['\\', 'f']
  else if c.toNat < 0x10 then ['\\', 'u', '0', '0', '0'] ++ Text.hexDigits c.toNat
  else if c.toNat < 0x20 then ['\\', 'u', '0', '0'] ++ Text.hexDigits c.toNat
  else [c]

def renderString (s : String) : List Char :=
  '"' :: (s.toList.flatMap escapeChar ++ ['"'])

def openBrace : Char := '\x7b'
def closeBrace : Char := '\x7d'

mutual

def render : Json → List Char
  | .null => ['n', 'u', 'l', 'l']
  | .bool true => ['t', 'r', 'u', 'e']
  | .bool false => ['f', 'a', 'l', 's', 'e']
  | .number n => n.text.toList
  | .string s => renderString s
  | .array [] => ['[', ']']
  | .array (x :: rest) => '[' :: (render x ++ renderItems rest)
  | .object [] => [openBrace, closeBrace]
  | .object (x :: rest) =>
    openBrace :: (renderString x.1 ++ ':' :: (render x.2 ++ renderMembers rest))

def renderItems : List Json → List Char
  | [] => [']']
  | x :: rest => ',' :: (render x ++ renderItems rest)

def renderMembers : List (String × Json) → List Char
  | [] => [closeBrace]
  | x :: rest => ',' :: (renderString x.1 ++ ':' :: (render x.2 ++ renderMembers rest))

end

def compact (j : Json) : String :=
  String.ofList (render j)

def lineBreak (indent : Nat) : List Char :=
  '\n' :: List.replicate (2 * indent) ' '

mutual

def renderIndented (indent : Nat) : Json → List Char
  | .array [] => ['[', ']']
  | .array (x :: rest) =>
    '[' :: (lineBreak (indent + 1) ++ (renderIndented (indent + 1) x ++
      indentedItems indent rest))
  | .object [] => [openBrace, closeBrace]
  | .object (x :: rest) =>
    openBrace :: (lineBreak (indent + 1) ++ (renderString x.1 ++ ':' :: ' ' ::
      (renderIndented (indent + 1) x.2 ++ indentedMembers indent rest)))
  | .null => render .null
  | .bool b => render (.bool b)
  | .number n => render (.number n)
  | .string s => render (.string s)

def indentedItems (indent : Nat) : List Json → List Char
  | [] => lineBreak indent ++ [']']
  | x :: rest =>
    ',' :: (lineBreak (indent + 1) ++ (renderIndented (indent + 1) x ++
      indentedItems indent rest))

def indentedMembers (indent : Nat) : List (String × Json) → List Char
  | [] => lineBreak indent ++ [closeBrace]
  | x :: rest =>
    ',' :: (lineBreak (indent + 1) ++ (renderString x.1 ++ ':' :: ' ' ::
      (renderIndented (indent + 1) x.2 ++ indentedMembers indent rest)))

end

def indented (j : Json) : String :=
  String.ofList (renderIndented 0 j)

end Reshape.Json
