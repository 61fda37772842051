import Reshape.Error
import Reshape.Json.Printer
import Reshape.Json.Reader
import Reshape.Value.Basic
/-! Values as JSON. A date becomes its text and the mark of a projected record disappears; all else
is kept. Writing a value directly and writing its JSON document are two definitions. -/
namespace Reshape.Value

mutual

def toJson : Value → Json
  | .null => .null
  | .bool b => .bool b
  | .number n => .number n
  | .string s => .string s
  | .date t => .string t.text
  | .array items => .array (itemsToJson items)
  | .record fs => .object (fieldsToJson fs)
  | .projected fs => .object (fieldsToJson fs)

def itemsToJson : List Value → List Json
  | [] => []
  | v :: rest => toJson v :: itemsToJson rest

def fieldsToJson : List (String × Value) → List (String × Json)
  | [] => []
  | f :: rest => (f.1, toJson f.2) :: fieldsToJson rest

end

mutual

def ofJson : Json → Value
  | .null => .null
  | .bool b => .bool b
  | .number n => .number n
  | .string s => .string s
  | .array items => .array (itemsOfJson items)
  | .object members => .record (fieldsOfJson members)

def itemsOfJson : List Json → List Value
  | [] => []
  | j :: rest => ofJson j :: itemsOfJson rest

def fieldsOfJson : List (String × Json) → List (String × Value)
  | [] => []
  | m :: rest => (m.1, ofJson m.2) :: fieldsOfJson rest

end

open Json (renderString openBrace closeBrace)

mutual

def write : Value → List Char
  | .null => ['n', 'u', 'l', 'l']
  | .bool true => ['t', 'r', 'u', 'e']
  | .bool false => ['f', 'a', 'l', 's', 'e']
  | .number n => n.text.toList
  | .string s => renderString s
  | .date t => renderString t.text
  | .array [] => ['[', ']']
  | .array (v :: rest) => '[' :: (write v ++ writeItems rest)
  | .record [] => [openBrace, closeBrace]
  | .record (f :: rest) =>
    openBrace :: (renderString f.1 ++ ':' :: (write f.2 ++ writeFields rest))
  | .projected [] => [openBrace, closeBrace]
  | .projected (f :: rest) =>
    openBrace :: (renderString f.1 ++ ':' :: (write f.2 ++ writeFields rest))

def writeItems : List Value → List Char
  | [] => [']']
  | v :: rest => ',' :: (write v ++ writeItems rest)

def writeFields : List (String × Value) → List Char
  | [] => [closeBrace]
  | f :: rest => ',' :: (renderString f.1 ++ ':' :: (write f.2 ++ writeFields rest))

end

def serialized (v : Value) : String :=
  String.ofList v.write

def display : Value → String
  | .string s => s
  | .date t => t.text
  | v => v.toJson.compact

def parse (text : String) : Except Error Value :=
  match Json.parse text with
  | .ok document => .ok (ofJson document)
  | .error e => .error (.malformedInput text e.message)

end Reshape.Value
