import Reshape.Context.Basic
import Reshape.Value.Describe
/-! Scopes, projections and contexts as diagnostics show them. A deferred value shows only after
someone has waited for it, functions show nothing of themselves, and a context shows only the names
of its scope. -/
namespace Reshape
open Describe
variable {F : Type}

def ContextFn.describe (_ : ContextFn F) : String :=
  "ContextFn(..)"

def Deferred.describe (settled : Nat → Bool) (d : Deferred) : String :=
  tuple "Deferred" (if settled d.id then d.value.describe else "<pending>")

mutual

def Variable.describe (settled : Nat → Bool) : Variable F → String
  | .value v => tuple "Value" v.describe
  | .function fn => fn.describe
  | .deferred d => d.describe settled
  | .scope entries => tuple "Scope" (map (Scope.describeEntries settled entries))

def Scope.describeEntries (settled : Nat → Bool) :
    List (String × Variable F) → List (String × String)
  | [] => []
  | e :: rest => (e.1, Variable.describe settled e.2) :: Scope.describeEntries settled rest

end

def Scope.describe (settled : Nat → Bool) (s : Scope F) : String :=
  map (Scope.describeEntries settled s)

def TypeTag.describe : TypeTag → String
  | .string => "String"
  | .number => "Number"
  | .boolean => "Boolean"
  | .date => "Date"
  | .object => "Object"
  | .array => "Array"
  | .undefined => "Undefined"
  | .any => "Any"
  | .unknown => "Unknown"
  | .arrayOf inner => tuple "ArrayOf" (Text.quoted inner)

def Predicate.describe (_ : Predicate F) : String :=
  tuple "Predicate" "ContextFn(..)"

mutual

def Projection.describe (settled : Nat → Bool) : Projection F → String
  | .object fields directives =>
    tuple "Object" (shape "ObjectProjection"
      [("fields", map (describeFields settled fields)),
       ("directives", list (describeDirectives settled directives))] false)
  | .list slots => tuple "List" (list (describeSlots settled slots))

def describeFields (settled : Nat → Bool) : List (String × Spec F) → List (String × String)
  | [] => []
  | f :: rest => (f.1, Spec.describe settled f.2) :: describeFields settled rest

def describeSlots (settled : Nat → Bool) : List (Projection F) → List String
  | [] => []
  | p :: rest => Projection.describe settled p :: describeSlots settled rest

def Spec.describe (settled : Nat → Bool) : Spec F → String
  | .typed tag => tuple "Type" tag.describe
  | .passthrough => "Passthrough"
  | .literal v => tuple "Literal" v.describe
  | .function fn => tuple "Function" fn.describe
  | .nested p => tuple "Nested" (Projection.describe settled p)
  | .project p => tuple "Project" (Projector.describe settled p)
  | .deferred d => tuple "Deferred" (d.describe settled)

def Projector.describe (settled : Nat → Bool) : Projector F → String
  | ⟨projection, context, _⟩ =>
    shape "Projector"
      [("projection", Projection.describe settled projection),
       ("context", option (context.map (Scope.describe settled)))] true

def describeDirectives (settled : Nat → Bool) : List (Directive F) → List String
  | [] => []
  | d :: rest => Directive.describe settled d :: describeDirectives settled rest

def Directive.describe (settled : Nat → Bool) : Directive F → String
  | .array => "Array"
  | .conditions items => tuple "If" (list (describeConditions settled items))
  | .combine suffix fn =>
    shape "Combine" [("suffix", option (suffix.map Text.quoted)), ("func", fn.describe)] false

def describeConditions (settled : Nat → Bool) : List (Condition F) → List String
  | [] => []
  | c :: rest => Condition.describe settled c :: describeConditions settled rest

def Condition.describe (settled : Nat → Bool) : Condition F → String
  | ⟨predicate, source⟩ =>
    shape "Condition"
      [("when", predicate.describe), ("then", Source.describe settled source)] false

def Source.describe (settled : Nat → Bool) : Source F → String
  | .project p => tuple "Project" (Projector.describe settled p)
  | .compute fn => tuple "Compute" fn.describe
  | .inline p => tuple "Inline" (Projection.describe settled p)

end

def Key.describe : Key → String
  | .root => "Root"
  | .field name => tuple "Field" (Text.quoted name)
  | .index i => tuple "Index" (toString i)

def Context.describe (c : Context F) : String :=
  shape "EvaluationContext"
    [("key", c.key.describe),
     ("data", c.data.describe),
     ("variables", list ((Entries.keys c.scope).map Text.quoted)),
     ("params", option (c.params.map fun ps => list (ps.map Value.describe))),
     ("depth", toString c.depth)] true

end Reshape
