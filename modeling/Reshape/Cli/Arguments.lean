/-! The arguments of the command line. Options may stand in any order, short ones may be joined, and
each may be given once. What is not understood is a usage error. -/
namespace Reshape.Cli

structure ProjectOptions where
  projection : String
  file : Option String
  context : Option String
  global : Option String
  pretty : Bool
  quiet : Bool
  deriving DecidableEq, Repr

inductive Command where
  | project (options : ProjectOptions)
  | check (projection : String) (quiet : Bool)
  | help
  | version
  deriving DecidableEq, Repr

structure Flag where
  letter : Char
  long : String
  valued : Bool
  deriving DecidableEq, Repr

def checkFlags : List Flag :=
  [⟨'P', "projection", true⟩, ⟨'q', "quiet", false⟩, ⟨'h', "help", false⟩]

def projectFlags : List Flag :=
  [⟨'P', "projection", true⟩, ⟨'f', "file", true⟩, ⟨'c', "context", true⟩,
   ⟨'g', "global", true⟩, ⟨'p', "pretty", false⟩, ⟨'q', "quiet", false⟩, ⟨'h', "help", false⟩]

inductive Stop where
  | usage
  | help
  deriving DecidableEq, Repr

abbrev Given := List (String × String)

def give (given : Given) (flag : Flag) (value : String) : Except Stop Given :=
  if flag.long = "help" then .error .help
  else if given.any (·.1 = flag.long) then .error .usage
  else .ok ((flag.long, value) :: given)

def isValue (arg : String) : Bool :=
  arg = "-" || arg.toList.head? ≠ some '-'

abbrev Progress := Given × Option Flag

def readLetters (flags : List Flag) (given : Given) : List Char → Except Stop Progress
  | [] => .ok (given, none)
  | c :: rest =>
    match flags.find? (·.letter = c) with
    | none => .error .usage
    | some flag =>
      if flag.valued then
        match rest with
        | [] => .ok (given, some flag)
        | '=' :: value => (give given flag (String.ofList value)).map (·, none)
        | value => (give given flag (String.ofList value)).map (·, none)
      else do
        let given ← give given flag ""
        readLetters flags given rest

def readLong (flags : List Flag) (given : Given) (body : List Char) : Except Stop Progress :=
  let name := body.takeWhile (· ≠ '=')
  let value := body.drop name.length
  match flags.find? (·.long = String.ofList name) with
  | none => .error .usage
  | some flag =>
    match value with
    | [] => if flag.valued then .ok (given, some flag) else (give given flag "").map (·, none)
    | _ :: value =>
      if flag.valued then (give given flag (String.ofList value)).map (·, none)
      else .error .usage

def readArgument (flags : List Flag) (given : Given) (arg : String) : Except Stop Progress :=
  match arg.toList with
  | '-' :: '-' :: body => readLong flags given body
  | '-' :: c :: rest => readLetters flags given (c :: rest)
  | _ => .error .usage

def readAll (flags : List Flag) : Progress → List String → Except Stop Given
  | (given, none), [] => .ok given
  | (_, some _), [] => .error .usage
  | (given, none), arg :: rest =>
    if arg = "--" then (if rest.isEmpty then .ok given else .error .usage)
    else do
      let progress ← readArgument flags given arg
      readAll flags progress rest
  | (given, some flag), arg :: rest =>
    if isValue arg then do
      let given ← give given flag arg
      readAll flags (given, none) rest
    else .error .usage

def value? (given : Given) (name : String) : Option String :=
  (given.find? (·.1 = name)).map (·.2)

def required (given : Given) (name : String) : Except Stop String :=
  match value? given name with
  | some v => .ok v
  | none => .error .usage

def readProject (args : List String) : Except Stop Command := do
  let given ← readAll projectFlags ([], none) args
  let projection ← required given "projection"
  return .project
    { projection
      file := value? given "file"
      context := value? given "context"
      global := value? given "global"
      pretty := (value? given "pretty").isSome
      quiet := (value? given "quiet").isSome }

def readCheck (args : List String) : Except Stop Command := do
  let given ← readAll checkFlags ([], none) args
  let projection ← required given "projection"
  return .check projection (value? given "quiet").isSome

def readCommand : List String → Except Stop Command
  | "project" :: rest => readProject rest
  | "check" :: rest => readCheck rest
  | ["help"] | ["help", "project"] | ["help", "check"] | ["help", "help"] => .ok .help
  | arg :: _ =>
    match arg.toList with
    | '-' :: 'V' :: _ => .ok .version
    | '-' :: 'h' :: _ => .ok .help
    | _ =>
      if arg = "--version" then .ok .version
      else if arg = "--help" then .ok .help
      else .error .usage
  | [] => .error .usage

/-- `none` is a usage error. -/
def parse (args : List String) : Option Command :=
  match readCommand args with
  | .ok command => some command
  | .error .help => some .help
  | .error .usage => none

end Reshape.Cli
