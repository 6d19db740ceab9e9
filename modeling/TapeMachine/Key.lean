import TapeMachine.Symbol
/-!
# Transition keys

A key `state:symbol` names the place of a transition in the table. `Key.parse` accepts exactly
the text that `Key.format` writes for a non-empty state without a colon and a symbol other than
the colon; every other text is refused with the first reason that applies.
-/
namespace TapeMachine

/-- What selects a transition: the state of the machine and the symbol under the head. -/
structure Key where
  state : State
  symbol : Symbol
  deriving DecidableEq, Repr

namespace Key

/-- What parts the state from the symbol. -/
def separator : Char := ':'

/-- Why a text is not a key. -/
inductive Fault where
  | noSeparator
  | ambiguous
  | emptyState
  | symbolNotSingle
  deriving DecidableEq, Repr

/-- The reason in words. -/
def Fault.message : Fault → String
  | noSeparator => "expected \"state:symbol\""
  | ambiguous => "more than one ':' makes the key ambiguous"
  | emptyState => "state is empty"
  | symbolNotSingle => "symbol must be a single character"

/-- The text of a key. -/
def format (key : Key) : String :=
  String.ofList (key.state.toList ++ [separator, key.symbol])

/-- Splits a text at its only separator. -/
def parse (text : String) : Except Fault Key :=
  let state := text.toList.takeWhile (· ≠ separator)
  match text.toList.dropWhile (· ≠ separator) with
  | [] => .error .noSeparator
  | _ :: symbol =>
    if separator ∈ symbol then .error .ambiguous
    else if state = [] then .error .emptyState
    else match symbol with
      | [c] => .ok ⟨String.ofList state, c⟩
      | _ => .error .symbolNotSingle

/-- Whether the parts can be told apart in the text of the key. -/
def IsReadable (key : Key) : Prop :=
  key.state ≠ "" ∧ separator ∉ key.state.toList ∧ key.symbol ≠ separator

instance (key : Key) : Decidable key.IsReadable := by unfold IsReadable; infer_instance

end Key

end TapeMachine
