import Reshape.Projection.Basic
/-! What a callback is given. A context describes one position of a run: the data there, the key
that led there, the scopes in force and the context around it. From the lowest layer up, the scope
in force has the data as `current`, the global, the projection and the instance scope, and then the
layer of the enclosing level; a higher layer replaces a name of a lower one in place. -/
namespace Reshape

inductive Key where
  | root
  | field (name : String)
  | index (position : Nat)
  deriving DecidableEq, Repr

namespace Key

def toValue : Key → Value
  | .root => .null
  | .field name => .string name
  | .index i => .ofNat i

def asField? : Key → Option String
  | .field name => some name
  | _ => none

def text : Key → String
  | .root => "$root"
  | .field name => name
  | .index i => "[" ++ toString i ++ "]"

end Key

structure Context (F : Type) where
  scope : Scope F
  /-- the data of this level; for pipes and transformers the value at hand -/
  data : Value
  key : Key
  projection : Projection F
  projectionScope : Option (Scope F)
  instanceScope : Option (Scope F)
  parent : Option (Context F)
  params : Option (List Value)
  depth : Nat

namespace Context
variable {F : Type}

def atKey (c : Context F) (key : Key) : Context F :=
  { c with key }

def withData (c : Context F) (data : Value) (params : Option (List Value)) : Context F :=
  { c with data, params }

def lookup? (c : Context F) (path : String) : Option (Variable F) :=
  Scope.lookup? c.scope path

def valueOf? (c : Context F) (path : String) : Option Value :=
  match c.lookup? path with
  | some (.value v) => some v
  | some (.scope inner) => some (Scope.toValue inner)
  | _ => none

def lookupInstance? (c : Context F) (path : String) : Option (Variable F) :=
  c.instanceScope.bind (Scope.lookup? · path)

def field? (c : Context F) (name : String) : Option Value :=
  c.data.get? name

def current? (c : Context F) : Option Value :=
  match c.key with
  | .root => some c.data
  | .field name => c.data.get? name
  | .index i => c.data.items?.bind (·[i]?)

def currentOrNull (c : Context F) : Value :=
  c.current?.getD .null

def param? (c : Context F) (index : Nat) : Option Value :=
  c.params.bind (·[index]?)

def currentName : String := "current"
def parentName : String := "parentContext"

def layer : Context F → Scope F
  | ⟨_, data, key, _, _, _, none, _, _⟩ =>
    [("data", .value data), ("key", .value key.toValue)]
  | ⟨_, data, key, _, _, _, some parent, _, _⟩ =>
    [("data", .value data), ("key", .value key.toValue), (parentName, .scope (layer parent))]

def merge (current : Value) (global : Scope F) (projection inst : Option (Scope F))
    (parent : Option (Context F)) : Scope F :=
  let base : Scope F := [(currentName, .value current)]
  let layers := [global, projection.getD [], inst.getD [], (parent.map layer).getD []]
  layers.foldl Entries.overlay base

end Context

inductive Computed (F : Type) where
  | value (content : Value)
  | absent
  /-- stands for the data at the current key -/
  | inherit
  | apply (projector : Projector F)

def inheritMark : String := "_inherit"

def Computed.normalize {F : Type} : Computed F → Computed F
  | .value (.string s) => if s = inheritMark then .inherit else .value (.string s)
  | other => other

end Reshape
