import TapeMachine.Json.Fault
import TapeMachine.Key
/-!
# What can be wrong with a description

The text may be no description at all, or a part of it may not spell a symbol or a key.
-/
namespace TapeMachine.Description

inductive Fault where
  | json (error : Json.Error)
  | symbol (part value : String)
  | key (text : String) (fault : Key.Fault)
  deriving DecidableEq

def Fault.message : Fault → String
  | json error => error.message
  | symbol part value => part ++ " must be a single character, got " ++ Text.quoted value
  | key text fault => "Invalid transition key " ++ Text.quoted text ++ ": " ++ fault.message

end TapeMachine.Description
