import TapeMachine.Halt
import TapeMachine.Text.Quoted
import TapeMachine.Trace
/-!
# Journals

What is noted while machines are built, validated and run. An entry has a level, a source, a
message and named fields, all of them text.
-/
namespace TapeMachine

namespace Journal

/-- How much an entry matters, from most to least. -/
inductive Level where
  | error
  | warning
  | information
  | debug
  | trace
  deriving DecidableEq, Repr

/-- The rank of a level: the smaller, the more it matters. -/
def Level.rank : Level → Nat
  | error => 0
  | warning => 1
  | information => 2
  | debug => 3
  | trace => 4

def Level.label : Level → String
  | error => "ERROR"
  | warning => "WARN"
  | information => "INFO"
  | debug => "DEBUG"
  | trace => "TRACE"

/-- Something that is noted. -/
inductive Entry where
  | machineBuilt (name : Option String) (states transitions : Nat) (start halt : State)
  | statesUnreachable (states : List State)
  | runStarted (state : State) (budget : StepCount)
  | applyingTransition (event : TraceEvent)
  | noTransition (state : State) (symbol : Symbol) (head : Position)
  | runFinished (state : State) (steps : StepCount) (halt : Halt)
  deriving DecidableEq

namespace Entry

def level : Entry → Level
  | statesUnreachable _ => .warning
  | applyingTransition _ => .trace
  | machineBuilt .. | runStarted .. | noTransition .. | runFinished .. => .debug

/-- Where the entry comes from. -/
def source : Entry → String
  | statesUnreachable _ => "utm::analyzer"
  | machineBuilt .. | runStarted .. | applyingTransition _ | noTransition .. | runFinished .. =>
    "utm::machine"

def message : Entry → String
  | machineBuilt .. => "machine built"
  | statesUnreachable _ => "states unreachable from the start state"
  | runStarted .. => "run started"
  | applyingTransition _ => "applying transition"
  | noTransition .. => "no transition defined"
  | runFinished .. => "run finished"

def fields : Entry → List (String × String)
  | machineBuilt name states transitions start halt => [
      ("name", name.getD "<unnamed>"),
      ("states", toString states),
      ("transitions", toString transitions),
      ("start", start),
      ("halt", halt)]
  | statesUnreachable states => [("states", Text.bracketed (states.map Text.quoted))]
  | runStarted state budget => [("state", state), ("max_steps", toString budget.toNat)]
  | applyingTransition e => [
      ("step", toString e.step.toNat),
      ("state", e.state),
      ("head", toString e.head.toInt),
      ("read", String.singleton e.read),
      ("write", String.singleton e.write),
      ("direction", String.singleton e.direction.letter),
      ("next", e.next)]
  | noTransition state symbol head => [
      ("state", state),
      ("symbol", String.singleton symbol),
      ("head", toString head.toInt)]
  | runFinished state steps halt => [
      ("state", state),
      ("steps", toString steps.toNat),
      ("outcome", halt.message)]

/-- Whether the entry matters at least as much as `level`. -/
def isAtLeast (level : Level) (entry : Entry) : Bool := entry.level.rank ≤ level.rank

end Entry

end Journal

end TapeMachine
