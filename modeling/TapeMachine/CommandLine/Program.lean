import TapeMachine.CommandLine.Arguments
import TapeMachine.Library
import TapeMachine.Validation
/-!
# The program

What the command line does, as a function of what is asked for, the files and the standard input.
The machine is loaded before the tape is read, and in strict mode both are checked before anything
is printed.
-/
namespace TapeMachine.CommandLine

/-- What the program can see. -/
structure World where
  files : Files.Source
  /-- The text on the standard input. -/
  input : Except Files.Failure String

/-- What the program does: the exit code, the text that it prints, and the message of an error. -/
structure Response where
  exitCode : UInt8
  output : String
  error : Option String
  deriving DecidableEq

/-- The name of the program and its version. -/
def banner : String := "utm-cli 0.1.0"

def usage : String := "\n".intercalate [
  "A universal Turing machine interpreter.",
  "",
  "Usage: utm-cli [OPTIONS] [MACHINE]",
  "",
  "Arguments:",
  "  [MACHINE]  Path to a machine description file (.json)",
  "",
  "Options:",
  "  -b, --builtin <BUILTIN>      Run a built-in machine instead of a description file",
  "      --list                   List the built-in machines and exit",
  "  -t, --tape <TAPE>            Initial tape contents, or - to read them from stdin",
  "  -m, --max-steps <MAX_STEPS>  Maximum number of steps to execute [default: 10000]",
  "      --trace                  Print each step of the execution before it is applied",
  "      --strict                 Validate the machine and tape, and exit non-zero unless it halts",
  "  -v, --verbose                Enable debug logging on stderr",
  "  -h, --help                   Print help",
  "  -V, --version                Print version",
  ""]

/-- The text without the line ends behind it. -/
def trimLineEnds (text : String) : String :=
  String.ofList (text.toList.reverse.dropWhile fun c => c = '\r' ∨ c = '\n').reverse

/-- The text and blanks up to a width. -/
def padRight (width : Nat) (text : String) : String :=
  text ++ String.ofList (List.replicate (width - text.length) ' ')

/-- A line about a built-in machine. -/
def listLine (info : Builtin.Info) : String :=
  padRight 20 info.name ++ " " ++ toString info.stateCount ++ " states, " ++
    toString info.transitionCount ++ " transitions, sample tape " ++ Text.quoted info.sample ++ "\n"

/-- A line about each built-in machine. -/
def listing : String :=
  String.join ((List.range Library.count).filterMap fun index =>
    (Library.info index).toOption.map listLine)

/-- What is printed about a run that is over. -/
def report (o : Outcome) : String :=
  "Final state: " ++ o.state ++ "\nSteps executed: " ++ toString o.steps.toNat ++
    "\nFinal tape: " ++ o.rendered ++ "\nOutcome: " ++ o.halt.message ++ "\n"

/-- A run that ends gives 0, in strict mode only if it reached the halt state. -/
def exitCode (strict : Bool) (halt : Halt) : UInt8 :=
  if strict then
    match halt with
    | .halted => 0
    | .undefinedTransition .. => 2
    | .budgetExceeded => 3
  else 0

namespace Options

variable (o : Options) (world : World)

/-- The machine to run and the sample tape that comes with it. -/
def load : Except Error (Machine × Option String) :=
  match o.target with
  | .builtin name => do
    let builtin ← Library.find name
    return (builtin.machine, some builtin.sample)
  | .file path => do return (← Machine.loadFrom world.files path, none)

/-- Whether the tape is to be read from the standard input. -/
def readsInput : Bool := o.tape = some "-"

/-- The text on the tape: what is given, else the sample, else nothing. -/
def tapeText (sample : Option String) : Except Error String :=
  if o.readsInput then
    match world.input with
    | .ok text => .ok (trimLineEnds text)
    | .error failure => .error (.file (.unreadableInput failure))
  else .ok ((o.tape.or sample).getD "")

/-- Loads and checks what is to run. -/
def prepare : Except Error (Machine × String) := do
  let (machine, sample) ← o.load world
  let text ← o.tapeText world sample
  if o.strict then
    machine.validate
    machine.validateTape text
  return (machine, text)

/-- Runs a machine on a tape; gives the outcome and what has been printed on the way. -/
def execute (machine : Machine) (text : String) : Outcome × String :=
  let e := machine.execute (machine.tape text)
  if o.trace then
    let (outcome, events) := e.run .recorder o.maxSteps #[]
    (outcome, String.join (events.toList.map fun event => event.line ++ "\n"))
  else ((e.run .silent o.maxSteps ()).1, "")

/-- Runs what is asked for. -/
def respond : Response :=
  match o.prepare world with
  | .error e => ⟨1, "", some ("Error: " ++ e.message)⟩
  | .ok (machine, text) =>
    let (outcome, lines) := o.execute machine text
    ⟨exitCode o.strict outcome.halt, lines ++ report outcome, none⟩

end Options

/-- What the program does when it is asked for something. -/
def Command.respond (world : World) : Command → Response
  | .help => ⟨0, usage, none⟩
  | .version => ⟨0, banner ++ "\n", none⟩
  | .list => ⟨0, listing, none⟩
  | .run options => options.respond world

end TapeMachine.CommandLine
