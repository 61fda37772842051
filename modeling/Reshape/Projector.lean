import Reshape.Evaluate.Level
import Reshape.Shape
/-! Applying projectors at the top level: for a value, for a list, or for a document of a requested
shape. A projector applied here has no parent and depth 0. -/
namespace Reshape.Projector
variable {F : Type}

def project (engines : Engines F) (p : Projector F) (data : Value) (inst : Option (Scope F)) :
    Run F (Option Value) :=
  Evaluate.within engines (engines.ceiling + 1) (p.invocation inst none) data

def projectList (engines : Engines F) (p : Projector F) (data : Value)
    (inst : Option (Scope F)) : Run F (List Value) := do
  match ← p.project engines data inst with
  | some (.array items) => return items
  | some v => return [v]
  | none => return []

def projectAs (engines : Engines F) (shape : Shape) (p : Projector F) (data : Value)
    (inst : Option (Scope F)) : Run F (Option Json) := do
  match ← p.project engines data inst with
  | none => return none
  | some v =>
    match shape.fit v.toJson with
    | .ok document => return some document
    | .error message => Run.fail (.shape message)

end Reshape.Projector
