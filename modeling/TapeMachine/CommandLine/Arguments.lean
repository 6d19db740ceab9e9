import TapeMachine.Error
import TapeMachine.Execution
/-!
# The command line

Arguments are read from left to right. Flags and options may stand anywhere; an option takes its
value from the same argument or from the next one, which then must not look like an option itself;
after two dashes everything is the name of a machine file. Nothing may be given twice. What is
asked for by `--help` or `--version` is settled where it stands.
-/
namespace TapeMachine.CommandLine

/-- What stands alone. -/
inductive Flag where
  | list
  | trace
  | strict
  | verbose
  | help
  | version
  deriving DecidableEq, Repr

/-- What takes a value. -/
inductive Valued where
  | builtin
  | tape
  | maxSteps
  deriving DecidableEq, Repr

/-- A flag or an option. -/
inductive Switch where
  | flag (flag : Flag)
  | valued (option : Valued)
  deriving DecidableEq, Repr

/-- The names that follow two dashes. -/
def longNames : List (String × Switch) := [
  ("builtin", .valued .builtin),
  ("list", .flag .list),
  ("tape", .valued .tape),
  ("max-steps", .valued .maxSteps),
  ("trace", .flag .trace),
  ("strict", .flag .strict),
  ("verbose", .flag .verbose),
  ("help", .flag .help),
  ("version", .flag .version)]

/-- The letters that follow one dash. -/
def shortNames : List (Char × Switch) := [
  ('b', .valued .builtin),
  ('t', .valued .tape),
  ('m', .valued .maxSteps),
  ('v', .flag .verbose),
  ('h', .flag .help),
  ('V', .flag .version)]

/-- What the arguments read so far say. -/
structure Arguments where
  machine : Option String := none
  builtin : Option String := none
  tape : Option String := none
  maxSteps : Option StepCount := none
  list : Bool := false
  trace : Bool := false
  strict : Bool := false
  verbose : Bool := false
  deriving DecidableEq

/-- Why the reading of arguments ends before their end. -/
inductive Interruption where
  | wrong
  | help
  | version
  deriving DecidableEq, Repr

/-- A decimal number below 2^64, possibly after a plus sign. -/
def parseCount (text : String) : Option StepCount :=
  let ds := match text.toList with
    | '+' :: ds => ds
    | ds => ds
  if ds = [] then none
  else do
    let n ← ds.foldlM (fun n c =>
      if '0' ≤ c ∧ c ≤ '9' then some (n * 10 + (c.toNat - '0'.toNat)) else none) 0
    if n < UInt64.size then some (UInt64.ofNat n) else none

namespace Arguments

/-- Takes note of a flag. -/
def setFlag (a : Arguments) (flag : Flag) : Except Interruption Arguments :=
  match flag with
  | .list => if a.list then .error .wrong else .ok { a with list := true }
  | .trace => if a.trace then .error .wrong else .ok { a with trace := true }
  | .strict => if a.strict then .error .wrong else .ok { a with strict := true }
  | .verbose => if a.verbose then .error .wrong else .ok { a with verbose := true }
  | .help => .error .help
  | .version => .error .version

/-- Takes note of an option with its value. -/
def setValue (a : Arguments) (option : Valued) (value : String) : Except Interruption Arguments :=
  match option with
  | .builtin => if a.builtin.isSome then .error .wrong else .ok { a with builtin := value }
  | .tape => if a.tape.isSome then .error .wrong else .ok { a with tape := value }
  | .maxSteps =>
    match a.maxSteps, parseCount value with
    | none, some n => .ok { a with maxSteps := n }
    | _, _ => .error .wrong

/-- Takes note of the name of a machine file, which is not empty. -/
def setMachine (a : Arguments) (path : String) : Except Interruption Arguments :=
  if path = "" ∨ a.machine.isSome then .error .wrong else .ok { a with machine := path }

/-- Whether an argument can only be a flag or an option. -/
def looksLikeSwitch (arg : String) : Bool := arg.startsWith "-" && arg ≠ "-"

/-- Reads the letters after one dash. An option takes the letters behind it as its value, less an
equals sign; without any it is left to be given a value. -/
def readLetters (a : Arguments) : List Char → Except Interruption (Arguments × Option Valued)
  | [] => .ok (a, none)
  | c :: rest =>
    match shortNames.lookup c with
    | none => .error .wrong
    | some (.flag flag) => do readLetters (← a.setFlag flag) rest
    | some (.valued option) =>
      match rest with
      | [] => .ok (a, some option)
      | '=' :: value => do return (← a.setValue option (String.ofList value), none)
      | value => do return (← a.setValue option (String.ofList value), none)

/-- Reads a name after two dashes, possibly with a value behind an equals sign. -/
def readLong (a : Arguments) (text : List Char) :
    Except Interruption (Arguments × Option Valued) :=
  let name := String.ofList (text.takeWhile (· ≠ '='))
  match longNames.lookup name, text.dropWhile (· ≠ '=') with
  | none, _ | some (.flag _), _ :: _ => .error .wrong
  | some (.flag flag), [] => do return (← a.setFlag flag, none)
  | some (.valued option), [] => .ok (a, some option)
  | some (.valued option), _ :: value => do
    return (← a.setValue option (String.ofList value), none)

/-- Reads what follows two dashes alone. -/
def readFiles (a : Arguments) (args : List String) : Except Interruption Arguments :=
  args.foldlM setMachine a

/-- Reads an argument. An option that has no value with it is left to be given one. -/
def readArgument (a : Arguments) (arg : String) : Except Interruption (Arguments × Option Valued) :=
  match arg.toList with
  | '-' :: '-' :: name => a.readLong name
  | '-' :: c :: letters => a.readLetters (c :: letters)
  | _ => do return (← a.setMachine arg, none)

/-- Reads all arguments. The first of them is the value of the option that waits for one. -/
def read (a : Arguments) (pending : Option Valued) : List String → Except Interruption Arguments
  | [] => if pending.isSome then .error .wrong else .ok a
  | arg :: rest => do
    match pending with
    | some option =>
      if looksLikeSwitch arg then throw .wrong
      else read (← a.setValue option arg) none rest
    | none =>
      if arg = "--" then a.readFiles rest
      else
        let (a, pending) ← a.readArgument arg
        read a pending rest

end Arguments

/-- Where the machine comes from. -/
inductive Target where
  | builtin (name : String)
  | file (path : String)
  deriving DecidableEq

/-- What to run, and how. -/
structure Options where
  target : Target
  tape : Option String
  maxSteps : StepCount
  trace : Bool
  strict : Bool
  verbose : Bool
  deriving DecidableEq

/-- What is asked for. -/
inductive Command where
  | help
  | version
  | list
  | run (options : Options)
  deriving DecidableEq

/-- What the arguments ask for, if they fit together: one machine at most, and one at least unless
a list is asked for. -/
def Arguments.command? (a : Arguments) : Option Command :=
  let run (target : Target) : Command :=
    .run {
      target
      tape := a.tape
      maxSteps := a.maxSteps.getD Machine.defaultBudget
      trace := a.trace
      strict := a.strict
      verbose := a.verbose }
  match a.machine, a.builtin with
  | some _, some _ => none
  | some path, none => some (if a.list then .list else run (.file path))
  | none, some name => some (if a.list then .list else run (.builtin name))
  | none, none => if a.list then some .list else none

/-- What the arguments ask for; nothing if they are wrong. -/
def parse (args : List String) : Option Command :=
  if args = [] then none
  else match Arguments.read {} none args with
    | .ok a => a.command?
    | .error .help => some .help
    | .error .version => some .version
    | .error .wrong => none

end TapeMachine.CommandLine
