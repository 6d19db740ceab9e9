import TapeMachine.Symbol
/-!
# Why runs stop

All three reasons are results of a run and none is an error.
-/
namespace TapeMachine

inductive Halt where
  | halted
  | undefinedTransition (state : State) (symbol : Symbol)
  | budgetExceeded
  deriving DecidableEq, Repr

def Halt.message : Halt → String
  | halted => "halted"
  | undefinedTransition state symbol =>
    "undefined transition (state " ++ state ++ ", symbol '" ++ String.singleton symbol ++ "')"
  | budgetExceeded => "step budget exceeded"

end TapeMachine
