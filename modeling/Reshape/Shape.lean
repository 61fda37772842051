import Reshape.Json.Printer
import Reshape.Projection.Basic
import Reshape.Error
/-! Shapes that a result is asked to have, and fitting JSON documents to them. A fitted document is
in the shape's own order: records by declaration, maps by name. The first misfit is reported. -/
namespace Reshape

inductive Shape where
  | any
  | text
  | unsigned (bits : Nat)
  | signed (bits : Nat)
  | optional (inner : Shape)
  | list (item : Shape)
  | map (value : Shape)
  /-- fixed names, each with its shape and the default for when it is missing, if it has one -/
  | struct (name : String) (fields : List (String × Shape × Option Json))
  deriving Repr

namespace Shape

def found : Json → String
  | .null => "null"
  | .bool b => "boolean \x60" ++ (if b then "true" else "false") ++ "\x60"
  | .number (.int i) => "integer \x60" ++ toString i ++ "\x60"
  | .number (.float x) => "floating point \x60" ++ (Number.float x).text ++ "\x60"
  | .string s => "string " ++ Text.quoted s
  | .array _ => "sequence"
  | .object _ => "map"

def wrongType (j : Json) (expected : String) : String :=
  "invalid type: " ++ found j ++ ", expected " ++ expected

def wrongValue (j : Json) (expected : String) : String :=
  "invalid value: " ++ found j ++ ", expected " ++ expected

def wrongLength (length : Nat) (expected : String) : String :=
  "invalid length " ++ toString length ++ ", expected " ++ expected

def missing (name : String) : String :=
  "missing field \x60" ++ name ++ "\x60"

def fitInteger (name : String) (least greatest : Int) (j : Json) : Except String Json :=
  match j with
  | .number (.int i) =>
    if least ≤ i ∧ i ≤ greatest then .ok j else .error (wrongValue j name)
  | _ => .error (wrongType j name)

def unsignedName (bits : Nat) : String :=
  "u" ++ toString bits

def signedName (bits : Nat) : String :=
  "i" ++ toString bits

def standIn : Shape → Option Json → Option Json
  | _, some j => some j
  | .optional _, none => some .null
  | _, none => none

def sortByName (es : Entries Json) : Entries Json :=
  es.mergeSort fun a b => a.1 ≤ b.1

def standIns (fields : List (String × Shape × Option Json)) : List (String × Option Json) :=
  fields.map fun f => (f.1, standIn f.2.1 f.2.2)

def fillMissing (present : Entries Json) :
    List (String × Option Json) → Except String (List (String × Json))
  | [] => .ok []
  | (name, stand) :: rest =>
    match present.get? name, stand with
    | some j, _ | none, some j => do
      let others ← fillMissing present rest
      return (name, j) :: others
    | none, none => .error (missing name)

mutual

def fit : Shape → Json → Except String Json
  | .any, j => .ok j
  | .text, .string s => .ok (.string s)
  | .text, j => .error (wrongType j "a string")
  | .unsigned bits, j => fitInteger (unsignedName bits) 0 (2 ^ bits - 1) j
  | .signed bits, j =>
    fitInteger (signedName bits) (-2 ^ (bits - 1)) (2 ^ (bits - 1) - 1) j
  | .optional _, .null => .ok .null
  | .optional inner, j => inner.fit j
  | .list item, .array items => (items.mapM item.fit).map .array
  | .list _, j => .error (wrongType j "a sequence")
  | .map value, .object members =>
    (members.mapM fun m => (value.fit m.2).map (m.1, ·)).map fun ms => .object (sortByName ms)
  | .map _, j => .error (wrongType j "a map")
  | .struct _ fields, .object members => do
    let fitted ← members.mapM fun m => fitMember fields m.1 m.2
    let ms ← fillMissing (fitted.filterMap id) (standIns fields)
    return .object ms
  | .struct name fields, .array items => do
    let expected := "struct " ++ name ++ " with " ++ toString fields.length ++ " elements"
    let ms ← fitPositions expected 0 fields items
    if fields.length < items.length then
      throw (wrongLength items.length "fewer elements in array")
    return .object ms
  | .struct name _, j => .error (wrongType j ("struct " ++ name))

def fitMember : List (String × Shape × Option Json) → String → Json →
    Except String (Option (String × Json))
  | [], _, _ => .ok none
  | f :: rest, name, j =>
    if f.1 = name then (f.2.1.fit j).map fun j => some (name, j) else fitMember rest name j

def fitPositions (expected : String) (index : Nat) :
    List (String × Shape × Option Json) → List Json → Except String (List (String × Json))
  | [], _ => .ok []
  | f :: rest, [] =>
    match f.2.2 with
    | some stand => do
      let others ← fitPositions expected (index + 1) rest []
      return (f.1, stand) :: others
    | none => .error (wrongLength index expected)
  | f :: rest, j :: items => do
    let value ← f.2.1.fit j
    let others ← fitPositions expected (index + 1) rest items
    return (f.1, value) :: others

end

end Shape
end Reshape
