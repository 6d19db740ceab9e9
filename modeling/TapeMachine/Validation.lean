import TapeMachine.Journal
import TapeMachine.Machine.Build
import TapeMachine.Validation.Reachability
/-!
# Strict validation

A machine passes if its start and halt state and all states in its table are declared, and all
symbols in its table are in the alphabet or blank. The first check that fails gives the error, with
everything that the check found. States that cannot be reached are noted and nothing more.
-/
namespace TapeMachine

open Validation (Defect)

namespace Validation

/-- The states at both ends of the rules that are not among the declared ones. -/
def undeclaredStates (declared : List State) (rules : List Rule) : List State :=
  ascending ((rules.flatMap fun rule => [rule.state, rule.transition.next]).filter (· ∉ declared))

/-- The symbols that rules read and write and that are not among the known ones. -/
def undeclaredSymbols (known : List Symbol) (rules : List Rule) : List Symbol :=
  ascending ((rules.flatMap fun rule => [rule.symbol, rule.transition.write]).filter (· ∉ known))

/-- The first defect of a machine with the given rules. -/
def firstDefect (states : List State) (known : List Symbol) (start halt : State)
    (rules : List Rule) : Option Defect :=
  if start ∉ states then some (.undeclaredStart start)
  else if halt ∉ states then some (.undeclaredHalt halt)
  else if undeclaredStates states rules ≠ [] then
    some (.undeclaredStates (undeclaredStates states rules))
  else if undeclaredSymbols known rules ≠ [] then
    some (.undeclaredSymbols (undeclaredSymbols known rules))
  else none

end Validation

namespace Machine

variable (m : Machine)

/-- The alphabet and the blank. -/
def knownSymbols : List Symbol := m.alphabet ++ [m.blank]

/-- Checks the machine. -/
def validate : Except Error Unit :=
  match Validation.firstDefect m.states m.knownSymbols m.start m.halt m.table.rules with
  | some defect => .error (.malformedMachine defect)
  | none => .ok ()

/-- The symbols of a text that the machine does not know. -/
def foreignSymbols (input : String) : List Symbol :=
  ascending (input.toList.filter (· ∉ m.knownSymbols))

/-- Checks that a tape holds only symbols that the machine knows. -/
def validateTape (input : String) : Except Error Unit :=
  match m.foreignSymbols input with
  | [] => .ok ()
  | symbols => .error (.malformedMachine (.foreignTapeSymbols symbols))

/-! ## What is noted -/

/-- What is noted when the machine has been built. -/
def builtEntry : Journal.Entry :=
  .machineBuilt m.name m.states.length m.table.size m.start m.halt

/-- What is noted while the machine is checked. -/
def validationEntries : List Journal.Entry :=
  match m.validate, m.unreachableStates with
  | .error _, _ | .ok (), [] => []
  | .ok (), states => [.statesUnreachable states]

end Machine

namespace Description

variable (d : Description)

/-- Builds a machine and checks it. -/
def buildStrict : Except Error Machine := do
  let m ← d.build
  m.validate
  return m

/-- What is noted while a machine is built. -/
def buildEntries : List Journal.Entry :=
  match d.build with
  | .ok m => [m.builtEntry]
  | .error _ => []

/-- What is noted while a machine is built and checked. -/
def buildStrictEntries : List Journal.Entry :=
  match d.build with
  | .ok m => m.builtEntry :: m.validationEntries
  | .error _ => []

end Description

end TapeMachine
