import Reshape.Projection.Tag
import Reshape.Scope.Basic
/-! Projections: what the output looks like. An object projection has named fields and directives, a
list projection has one slot per position. A projector is a projection compiled by an engine,
together with the scope it was compiled with. -/
namespace Reshape

inductive Predicate (F : Type) where
  | always (outcome : Bool)
  | holds (fn : ContextFn F)
  deriving DecidableEq, Repr

mutual

inductive Projection (F : Type) where
  | object (fields : List (String × Spec F)) (directives : List (Directive F))
  | list (slots : List (Projection F))

inductive Spec (F : Type) where
  | typed (tag : TypeTag)
  | passthrough
  | literal (value : Value)
  | function (fn : ContextFn F)
  | nested (projection : Projection F)
  | project (projector : Projector F)
  | deferred (content : Deferred)

structure Projector (F : Type) where
  projection : Projection F
  context : Option (List (String × Variable F))
  engine : Nat

inductive Directive (F : Type) where
  | array
  | conditions (items : List (Condition F))
  | combine (suffix : Option String) (fn : ContextFn F)

structure Condition (F : Type) where
  predicate : Predicate F
  source : Source F

inductive Source (F : Type) where
  | project (projector : Projector F)
  | compute (fn : ContextFn F)
  | inline (projection : Projection F)

end

variable {F : Type}

instance : Inhabited (Projection F) := ⟨.object [] []⟩

def arrayKey : String := "@array"
def conditionsKey : String := "@if"
def combineKey : String := "@combine"

namespace Directive

def isArray : Directive F → Bool
  | .array => true
  | _ => false

def key : Directive F → String
  | .array => arrayKey
  | .conditions _ => conditionsKey
  | .combine none _ => combineKey
  | .combine (some suffix) _ => combineKey ++ ":" ++ suffix

end Directive

def Projection.isArray : Projection F → Bool
  | .object _ directives => directives.any Directive.isArray
  | .list _ => false

namespace Spec

def ofTag (text : String) : Spec F :=
  match TypeTag.parse? text with
  | some tag => .typed tag
  | none => .literal (.string text)

def ofValue : Value → Spec F
  | .string text => ofTag text
  | v => .literal v

def isProjection : Spec F → Bool
  | .nested _ | .project _ => true
  | _ => false

end Spec
end Reshape
