import TapeMachine.CommandLine.Program
/-!
# Entry point

Reads the one file and, if need be, the standard input that the command asks for, and prints the
response.
-/
namespace TapeMachine.CommandLine

/-- Why an operation of the system failed. Some operations give the system's code with a minus. -/
def failureOf : IO.Error → Files.Failure
  | .noFileOrDirectory .. => .notFound
  | .inappropriateType _ code _ =>
    if code = 21 ∨ code = -21 then .isDirectory else .notDirectory
  | .permissionDenied .. => .system "Permission denied (os error 13)"
  | e => .system (toString e)

def readFile (path : String) : IO (Except Files.Failure String) := do
  try return Files.decode (← IO.FS.readBinFile path)
  catch e => return .error (failureOf e)

def readInput : IO (Except Files.Failure String) := do
  try return Files.decode (← (← IO.getStdin).readBinToEnd)
  catch e => return .error (failureOf e)

/-- What the program sees when it is asked for a command. -/
def Command.world : Command → IO World
  | .run o => do
    let file ← match o.target with
      | .file path => readFile path
      | .builtin _ => pure (.error .notFound)
    let input ← if o.readsInput then readInput else pure (.ok "")
    return ⟨fun _ => file, input⟩
  | _ => return ⟨fun _ => .error .notFound, .ok ""⟩

end TapeMachine.CommandLine

open TapeMachine.CommandLine in
def main (args : List String) : IO UInt32 := do
  match parse args with
  | none =>
    IO.eprint usage
    return 2
  | some command =>
    let response := command.respond (← command.world)
    IO.print response.output
    if let some error := response.error then IO.eprintln error
    return response.exitCode.toUInt32
