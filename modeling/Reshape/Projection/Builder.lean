import Reshape.Projection.Basic
/-! Building object projections step by step. Names that start with `@` never become fields: they
are read as directives where the spec allows it and are ignored elsewhere. -/
namespace Reshape

structure ObjectProjection (F : Type) where
  fields : Entries (Spec F) := []
  directives : List (Directive F) := []

namespace ObjectProjection
variable {F : Type}

def empty : ObjectProjection F := {}

def build (p : ObjectProjection F) : Projection F :=
  .object p.fields p.directives

def isArray (p : ObjectProjection F) : Bool :=
  p.directives.any Directive.isArray

def directive (p : ObjectProjection F) (d : Directive F) : ObjectProjection F :=
  if d.isArray && p.isArray then p else { p with directives := p.directives ++ [d] }

def array (p : ObjectProjection F) : ObjectProjection F :=
  p.directive .array

def conditions (p : ObjectProjection F) (items : List (Condition F)) : ObjectProjection F :=
  p.directive (.conditions items)

def combine (p : ObjectProjection F) (fn : ContextFn F) : ObjectProjection F :=
  p.directive (.combine none fn)

def combineNamed (p : ObjectProjection F) (suffix : String) (fn : ContextFn F) :
    ObjectProjection F :=
  p.directive (.combine (some suffix) fn)

def isReserved (key : String) : Bool :=
  key.toList.head? = some '@'

def combineSuffix? (key : String) : Option String :=
  let opening := combineKey.toList ++ [':']
  if opening.isPrefixOf key.toList then some (String.ofList (key.toList.drop opening.length))
  else none

def directive? (key : String) : Spec F → Option (Directive F)
  | .literal flag => if key = arrayKey && flag.isTruthy then some .array else none
  | .function fn =>
    if key = combineKey then some (.combine none fn)
    else (combineSuffix? key).map fun suffix => .combine (some suffix) fn
  | _ => none

def insert (p : ObjectProjection F) (key : String) (spec : Spec F) : ObjectProjection F :=
  if isReserved key then
    match directive? key spec with
    | some d => p.directive d
    | none => p
  else { p with fields := p.fields.put key spec }

def get? (p : ObjectProjection F) (key : String) : Option (Spec F) :=
  p.fields.get? key

end ObjectProjection
end Reshape
