import Reshape.Value.Basic
import Reshape.Text.Quoted
/-! Values as diagnostics show them: each with the name of its kind. This text is for people and is
never read back. -/
namespace Reshape

namespace Describe

def tuple (name : String) (inner : String) : String :=
  name ++ "(" ++ inner ++ ")"

def list (items : List String) : String :=
  "[" ++ String.intercalate ", " items ++ "]"

def map (entries : List (String × String)) : String :=
  "\x7b" ++ String.intercalate ", " (entries.map fun e => Text.quoted e.1 ++ ": " ++ e.2) ++ "\x7d"

def shape (name : String) (fields : List (String × String)) (more : Bool) : String :=
  let shown := fields.map fun e => e.1 ++ ": " ++ e.2
  name ++ " \x7b " ++ String.intercalate ", " (if more then shown ++ [".."] else shown) ++ " \x7d"

def option (inner : Option String) : String :=
  match inner with
  | some text => tuple "Some" text
  | none => "None"

def flag (b : Bool) : String :=
  if b then "true" else "false"

end Describe

namespace Value
open Describe

mutual

def describe : Value → String
  | .null => "Null"
  | .bool b => tuple "Bool" (flag b)
  | .number n => tuple "Number" (tuple "Number" n.text)
  | .string s => tuple "String" (Text.quoted s)
  | .date t => tuple "Date" t.exactText
  | .array items => tuple "Array" (list (describeItems items))
  | .record fs => tuple "Object" (map (describeFields fs))
  | .projected fs =>
    tuple "Projected" (shape "ProjectedRecord" [("fields", map (describeFields fs))] false)

def describeItems : List Value → List String
  | [] => []
  | v :: rest => describe v :: describeItems rest

def describeFields : List (String × Value) → List (String × String)
  | [] => []
  | f :: rest => (f.1, describe f.2) :: describeFields rest

end

end Value
end Reshape
