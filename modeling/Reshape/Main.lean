import Reshape.Cli.Basic
/-! The program: reads the files that the command names and prints what the command line answers. -/
namespace Reshape.Main

/-- The number of a failure; some calls give it with its sign changed, in 32 bits. -/
def failureNumber (code : UInt32) : Nat :=
  if code.toNat < Nat.pow 2 31 then code.toNat else Nat.pow 2 32 - code.toNat

def systemText (e : IO.Error) : String :=
  match e with
  | .noFileOrDirectory _ code details
  | .inappropriateType _ code details
  | .permissionDenied _ code details
  | .invalidArgument _ code details =>
    details.capitalize ++ " (os error " ++ toString (failureNumber code) ++ ")"
  | other => toString other

def decode (bytes : ByteArray) : Except String String :=
  match String.fromUTF8? bytes with
  | some text => .ok text
  | none => .error "stream did not contain valid UTF-8"

def tryRead (action : IO ByteArray) : IO (Except String String) := do
  try
    return decode (← action)
  catch e =>
    return .error (systemText e)

def names : Option Cli.Command → List String
  | some (.project o) =>
    o.projection :: (o.file.toList ++ o.context.toList ++ o.global.toList)
  | some (.check name _) => [name]
  | _ => []

def readsInput : Option Cli.Command → Bool
  | some (.project o) => o.file.isNone
  | _ => false

def readInput (command : Option Cli.Command) : IO Cli.Input := do
  let files ← (names command).mapM fun (name : String) => do
    return (name, ← tryRead (IO.FS.readBinFile name))
  let stdin ←
    if readsInput command then tryRead (do (← IO.getStdin).readBinToEnd) else pure (.ok "")
  return ⟨fun name => (files.find? (·.1 = name)).map (·.2) |>.getD (.error ""), stdin⟩

end Reshape.Main

open Reshape in
def main (args : List String) : IO UInt32 := do
  let command := Cli.parse args
  let output := Cli.run (← Main.readInput command) command
  IO.print output.stdout
  IO.eprint output.stderr
  return output.code.toUInt32
