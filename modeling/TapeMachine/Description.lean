import TapeMachine.Transition
/-!
# Descriptions

A machine as it is written down. Symbols are still strings and keys still text; transitions keep
the order of the document, with repeated keys side by side.
-/
namespace TapeMachine

/-- A machine as written. -/
structure Description where
  name : Option String
  states : List State
  alphabet : List String
  blank : String
  transitions : List (String × Instruction)
  start : State
  halt : State
  deriving DecidableEq

end TapeMachine
