import Reshape.Run.Basic
import Reshape.Engine
/-! One application of a projection to one piece of data, before the data is known. What is nested
stays with its engine and scopes; a projector brings its own engine and projection scope. -/
namespace Reshape
variable {F : Type}

structure Invocation (F : Type) where
  engine : Nat
  projection : Projection F
  projectionScope : Option (Scope F)
  instanceScope : Option (Scope F)
  parent : Option (Context F)
  depth : Nat

abbrev Apply (F : Type) := Invocation F → Value → Run F (Option Value)

def Invocation.nested (inv : Invocation F) (projection : Projection F) (parent : Context F) :
    Invocation F :=
  { inv with projection, parent := some parent, depth := parent.depth + 1 }

namespace Projector

def invocation (p : Projector F) (inst : Option (Scope F)) (parent : Option (Context F)) :
    Invocation F :=
  { engine := p.engine
    projection := p.projection
    projectionScope := p.context
    instanceScope := inst
    parent
    depth := match parent with
      | some c => c.depth + 1
      | none => 0 }

def applyIn (apply : Apply F) (p : Projector F) (data : Value) (inst : Option (Scope F))
    (parent : Context F) : Run F (Option Value) :=
  apply (p.invocation inst (some parent)) data

end Projector

def Computed.value? (c : Context F) (projected : Projector F → Run F (Option Value)) :
    Computed F → Run F (Option Value)
  | .value v => .pure (some v)
  | .absent => .pure none
  | .inherit => .pure c.current?
  | .apply p => projected p

def Computed.revise (v : Value) (projected : Projector F → Run F (Option Value)) :
    Computed F → Run F (Option Value)
  | .value w => .pure (some w)
  | .absent => .pure none
  | .inherit => .pure (some v)
  | .apply p => projected p

end Reshape
