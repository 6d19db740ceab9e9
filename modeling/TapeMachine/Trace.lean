import TapeMachine.Direction
import TapeMachine.Symbol
import TapeMachine.Tape
/-!
# Traces

What a machine is about to do, noted before each step, and the line that shows it.
-/
namespace TapeMachine

/-- The number of a step, and how many steps a run may take. -/
abbrev StepCount := UInt64

/-- A step that is about to be taken. -/
structure TraceEvent where
  step : StepCount
  state : State
  head : Position
  read : Symbol
  write : Symbol
  direction : Direction
  next : State
  deriving DecidableEq

/-- The event on one line. -/
def TraceEvent.line (e : TraceEvent) : String :=
  "[step " ++ toString e.step.toNat ++ "] state=" ++ e.state ++ " head=" ++ toString e.head.toInt ++
    " read=" ++ String.singleton e.read ++ " -> write=" ++ String.singleton e.write ++
    " move=" ++ String.singleton e.direction.letter ++ " next=" ++ e.next

end TapeMachine
