import TapeMachine.Table
import TapeMachine.Tape
/-!
# Machines

A machine that can run: the table, the blank, the start and the halt state. The declared states and
symbols and the name are kept for validation and for writing the machine down.
-/
namespace TapeMachine

/-- A single-tape machine. -/
structure Machine where
  name : Option String
  states : List State
  alphabet : List Symbol
  blank : Symbol
  table : Table
  start : State
  halt : State
  deriving DecidableEq

namespace Machine

variable (m : Machine)

/-- The transition for a state that reads a symbol. -/
def transition? (state : State) (symbol : Symbol) : Option Transition := m.table.lookup state symbol

/-- A tape that holds a text from position 0 on and the machine's blank elsewhere. -/
def tape (input : String) : Tape := Tape.ofString input m.blank

end Machine

end TapeMachine
