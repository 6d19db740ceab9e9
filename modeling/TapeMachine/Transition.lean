import TapeMachine.Direction
import TapeMachine.Symbol
/-!
# Transitions

A transition says what to write, where to move and which state to enter. An instruction is the
same as a description spells it, where the symbol to write may still be any string.
-/
namespace TapeMachine

/-- Write `write`, move the head by `direction`, enter `next`. -/
structure Transition where
  next : State
  write : Symbol
  direction : Direction
  deriving DecidableEq, Repr

/-- A transition as written, before its symbol has been checked. -/
structure Instruction where
  next : State
  write : String
  direction : Direction
  deriving DecidableEq, Repr

/-- How a description spells the transition. -/
def Transition.toInstruction (t : Transition) : Instruction :=
  ⟨t.next, String.singleton t.write, t.direction⟩

end TapeMachine
