import Reshape.Text.Quoted
/-! Why a projection fails. Nothing inside the engine recovers from an error: the first one is the
answer of the whole call. -/
namespace Reshape

inductive Error where
  | malformedInput (value cause : String)
  | pipeNotFound (name : String)
  | pipeNotCallable (name : String)
  | callback (message : String)
  | recursionLimit (depth limit : Nat)
  | shape (message : String)
  | invalidProjection (message : String)
  deriving DecidableEq, Repr, Inhabited

namespace Error

def message : Error → String
  | .malformedInput value cause =>
    "Malformed input: " ++ cause ++ " (value: " ++ Text.quoted value ++ ")"
  | .pipeNotFound name => "Pipe \"" ++ name ++ "\" not found"
  | .pipeNotCallable name => "Pipe \"" ++ name ++ "\" is not a function"
  | .callback message => "Callback failed: " ++ message
  | .recursionLimit depth limit =>
    "Recursion depth " ++ toString depth ++ " exceeds the configured limit of " ++ toString limit
  | .shape message => "Shape error: " ++ message
  | .invalidProjection message => "Invalid projection: " ++ message

def isCallback : Error → Bool
  | .callback _ => true
  | _ => false

end Error
end Reshape
