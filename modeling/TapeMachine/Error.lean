import TapeMachine.Description.Fault
import TapeMachine.Files
import TapeMachine.Validation.Defect
/-!
# Errors

Everything that can keep a machine from being built, validated or loaded. An error has a kind,
which opens its message, and a cause.
-/
namespace TapeMachine

/-- What a library of machines was asked for in vain. -/
inductive Request where
  | named (name : String)
  | numbered (index : Nat)
  deriving DecidableEq

/-- Why no description could be had. -/
inductive LoadFault where
  | unreadable (path : String) (failure : Files.Failure)
  | unreadableInput (failure : Files.Failure)
  | tooLarge (bytes limit : Nat)
  deriving DecidableEq

def Request.message : Request → String
  | named name => name
  | numbered index => "index " ++ toString index ++ " out of range"

def LoadFault.message : LoadFault → String
  | unreadable path failure => "Failed to read file " ++ path ++ ": " ++ failure.message
  | unreadableInput failure => "Failed to read from stdin: " ++ failure.message
  | tooLarge bytes limit =>
    "Description is " ++ toString bytes ++ " bytes, the limit is " ++ toString limit ++ " bytes"

inductive Error where
  | malformedDescription (fault : Description.Fault)
  | duplicateKey (key : Key)
  | malformedMachine (defect : Validation.Defect)
  | unknownMachine (request : Request)
  | file (fault : LoadFault)
  deriving DecidableEq

namespace Error

/-- The kinds of errors. -/
inductive Kind where
  | malformedDescription
  | duplicateKey
  | malformedMachine
  | unknownMachine
  | file
  deriving DecidableEq, Repr

def kind : Error → Kind
  | .malformedDescription _ => .malformedDescription
  | .duplicateKey _ => .duplicateKey
  | .malformedMachine _ => .malformedMachine
  | .unknownMachine _ => .unknownMachine
  | .file _ => .file

/-- How the message of an error of this kind begins. -/
def Kind.opening : Kind → String
  | malformedDescription => "Malformed description: "
  | duplicateKey => "Duplicate transition for "
  | malformedMachine => "Malformed machine: "
  | unknownMachine => "Unknown machine: "
  | file => "File error: "

/-- What the message of an error says about its cause. -/
def detail : Error → String
  | .malformedDescription fault => fault.message
  | .duplicateKey key =>
    "state " ++ key.state ++ " and symbol '" ++ String.singleton key.symbol ++ "'"
  | .malformedMachine defect => defect.message
  | .unknownMachine request => request.message
  | .file fault => fault.message

def message (e : Error) : String := e.kind.opening ++ e.detail

end Error

end TapeMachine
