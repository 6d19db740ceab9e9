import TapeMachine.Symbol
import TapeMachine.Text.Quoted
/-!
# What strict validation can find
-/
namespace TapeMachine.Validation

/-- What a machine uses without declaring it, or a tape holds without the machine knowing it. -/
inductive Defect where
  | undeclaredStart (state : State)
  | undeclaredHalt (state : State)
  | undeclaredStates (states : List State)
  | undeclaredSymbols (symbols : List Symbol)
  | foreignTapeSymbols (symbols : List Symbol)
  deriving DecidableEq

def Defect.message : Defect → String
  | undeclaredStart state => "Start state " ++ state ++ " is not declared"
  | undeclaredHalt state => "Halt state " ++ state ++ " is not declared"
  | undeclaredStates states =>
    "Transitions reference undeclared states: " ++ Text.bracketed (states.map Text.quoted)
  | undeclaredSymbols symbols =>
    "Transitions use symbols outside the alphabet: " ++ Text.bracketed (symbols.map Text.quotedChar)
  | foreignTapeSymbols symbols =>
    "Initial tape contains symbols outside the alphabet: " ++
      Text.bracketed (symbols.map Text.quotedChar)

end TapeMachine.Validation
