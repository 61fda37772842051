import Reshape.Projection.Builder
import Reshape.Value.Json
/-! Projections written as JSON documents. Strings are tags or literals, containers are projections,
other scalars are literals. Of the directives only `@array` can be written; its value decides
whether it counts and is not looked into any further. -/
namespace Reshape

namespace Projection
variable {F : Type}

inductive Fault where
  | notContainer (typeName : String)
  | itemNotContainer (index : Nat)
  | directive (key : String)
  deriving DecidableEq, Repr

def Fault.message : Fault → String
  | .notContainer typeName => "expected an object or an array, found " ++ typeName
  | .itemNotContainer index =>
    "list projection item " ++ toString index ++ " must be an object or an array"
  | .directive key => "directive " ++ key ++ " cannot be expressed in JSON"

mutual

def load : Json → Except Fault (Projection F)
  | .object members => (loadMembers .empty members).map (·.build)
  | .array items => (loadItems 0 items).map .list
  | .null => .error (.notContainer "null")
  | .bool _ => .error (.notContainer "boolean")
  | .number _ => .error (.notContainer "number")
  | .string _ => .error (.notContainer "string")

def loadItems (index : Nat) : List Json → Except Fault (List (Projection F))
  | [] => .ok []
  | item :: rest =>
    match item with
    | .object _ | .array _ => do
      let slot ← load item
      let slots ← loadItems (index + 1) rest
      .ok (slot :: slots)
    | _ => .error (.itemNotContainer index)

def loadMembers (p : ObjectProjection F) :
    List (String × Json) → Except Fault (ObjectProjection F)
  | [] => .ok p
  | m :: rest =>
    if m.1 = arrayKey then
      match m.2 with
      | .bool true => loadMembers p.array rest
      | _ => loadMembers p rest
    else if ObjectProjection.isReserved m.1 then .error (.directive m.1)
    else do
      let spec ← loadSpec m.2
      loadMembers (p.insert m.1 spec) rest

def loadSpec : Json → Except Fault (Spec F)
  | .string tag => .ok (.ofTag tag)
  | .object members => (loadMembers .empty members).map (.nested ·.build)
  | .array items => (loadItems 0 items).map (.nested <| .list ·)
  | .null => .ok (.literal .null)
  | .bool b => .ok (.literal (.bool b))
  | .number n => .ok (.literal (.number n))

end

def ofJson (document : Json) : Except Error (Projection F) :=
  (load document).mapError fun fault => .invalidProjection fault.message

def parse (text : String) : Except Error (Projection F) :=
  match Json.parse text with
  | .ok document => ofJson document
  | .error e => .error (.invalidProjection e.message)

end Projection
end Reshape
