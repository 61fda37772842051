import Reshape.Entries
import Reshape.Number.Basic
/-! JSON documents as trees. Members keep the order of the text; a document built by the reader has
no repeated name. Reading and printing are in modules of their own. -/
namespace Reshape

inductive Json where
  | null
  | bool (value : Bool)
  | number (value : Number)
  | string (text : String)
  | array (items : List Json)
  | object (members : List (String × Json))
  deriving Repr, Inhabited

namespace Json

def ofNat (n : Nat) : Json :=
  .number (.int n)

def ofInt (i : Int) : Json :=
  .number (.int i)

def asString? : Json → Option String
  | .string s => some s
  | _ => none

def asArray? : Json → Option (List Json)
  | .array items => some items
  | _ => none

def asObject? : Json → Option (Entries Json)
  | .object members => some members
  | _ => none

def member? (j : Json) (name : String) : Option Json :=
  j.asObject?.bind (Entries.get? · name)

end Json
end Reshape
