import Reshape.Cli.Arguments
import Reshape.Projector
import Reshape.Run.Eval
import Reshape.Projection.Document
import Reshape.Context.Describe
import Reshape.Json.Reader
/-! The command line as a function from files and standard input to text and an exit code. It
applies JSON projections to JSON data or checks that they load. There are no callbacks, and help
texts are not part of it. -/
namespace Reshape.Cli

structure Input where
  file : String → Except String String
  stdin : Except String String

structure Output where
  code : Nat
  stdout : String
  stderr : String
  deriving DecidableEq, Repr

def context {α : Type} (what : String) (result : Except String α) : Except String α :=
  result.mapError fun cause => what ++ ": " ++ cause

def readJson (input : Input) (name : String) : Except String Json := do
  let text ← context ("Error reading file '" ++ name ++ "'") (input.file name)
  context ("Error parsing JSON in '" ++ name ++ "'") ((Json.parse text).mapError (·.message))

def loadProjection (input : Input) (name : String) : Except String (Projection Empty) := do
  let document ← readJson input name
  context ("Error loading projection '" ++ name ++ "'")
    ((Projection.ofJson document).mapError Error.message)

def readData (input : Input) : Option String → Except String Json
  | some name => readJson input name
  | none => do
    let text ← context "Error reading from stdin" input.stdin
    context "Error parsing JSON data" ((Json.parse text).mapError (·.message))

def readScope (input : Input) (name : Option String) : Except String (Option (Scope Empty)) :=
  match name with
  | none => .ok none
  | some name => (readJson input name).map fun j => some (Scope.ofValue (Value.ofJson j))

def apply (projection : Projection Empty) (data : Value) (inst : Option (Scope Empty))
    (global : Scope Empty) : Except Error (Option Value) :=
  let engines := Engines.single { source := .ready global : Engine Empty }
  let projector : Projector Empty := ⟨projection, none, 0⟩
  (projector.project engines data inst).eval ⟨fun symbol _ => symbol.elim, fun _ => .ok global⟩

def projectText (input : Input) (o : ProjectOptions) : Except String String := do
  let projection ← loadProjection input o.projection
  let data ← readData input o.file
  let inst ← readScope input o.context
  let global ← readScope input o.global
  let result ← context "Error applying projection"
    ((apply projection (Value.ofJson data) inst (global.getD [])).mapError Error.message)
  let document := (result.map Value.toJson).getD .null
  return if o.pretty then document.indented else document.compact

def runProject (input : Input) (o : ProjectOptions) : Output :=
  match projectText input o with
  | .ok text =>
    ⟨0, text ++ "\n", if o.quiet then "" else "Projection: " ++ o.projection ++ "\nResult:\n"⟩
  | .error e => ⟨1, "", "Error: " ++ e ++ "\n"⟩

def runCheck (input : Input) (name : String) (quiet : Bool) : Output :=
  match loadProjection input name with
  | .ok projection =>
    if quiet then ⟨0, "VALID\n", ""⟩
    else
      ⟨0, "✓ Projection loaded successfully\nProjection: " ++ name ++ "\nDefinition: " ++
        projection.describe (fun _ => false) ++ "\n", ""⟩
  | .error e =>
    if quiet then ⟨1, "", "INVALID\n"⟩
    else ⟨1, "", "✗ Invalid projection: " ++ e ++ "\nProjection: " ++ name ++ "\n"⟩

def versionText : String := "octofhir-projection 0.1.0\n"

def run (input : Input) : Option Command → Output
  | none => ⟨2, "", ""⟩
  | some .help => ⟨0, "", ""⟩
  | some .version => ⟨0, versionText, ""⟩
  | some (.project o) => runProject input o
  | some (.check name quiet) => runCheck input name quiet

end Reshape.Cli
