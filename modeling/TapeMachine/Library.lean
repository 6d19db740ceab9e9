import TapeMachine.Machine.Build
/-!
# Built-in machines

Five machines, each with a tape to try it on.
-/
namespace TapeMachine

/-- A machine of the library. -/
structure Builtin where
  name : String
  machine : Machine
  sample : String
  deriving DecidableEq

/-- What a list of machines says about one of them. -/
structure Builtin.Info where
  index : Nat
  name : String
  start : State
  halt : State
  sample : String
  stateCount : Nat
  transitionCount : Nat

namespace Library

/-- A description with a name, whose transitions are given by key, next state, symbol to write and
direction. -/
def describe (name : String) (states alphabet : List String) (blank : String)
    (transitions : List (String × String × String × Direction)) (start halt : State) :
    Description where
  name := some name
  states := states
  alphabet := alphabet
  blank := blank
  transitions := transitions.map fun (key, next, write, direction) => (key, ⟨next, write, direction⟩)
  start := start
  halt := halt

/-- Appends a one to a row of ones. -/
def unaryIncrement : Description :=
  describe "unary-increment" ["add", "done"] ["1", "B"] "B" [
    ("add:1", "add", "1", .right),
    ("add:B", "done", "1", .stay)] "add" "done"

/-- Adds one to a binary number. -/
def binaryIncrement : Description :=
  describe "binary-increment" ["right", "carry", "done"] ["0", "1"] "_" [
    ("right:0", "right", "0", .right),
    ("right:1", "right", "1", .right),
    ("right:_", "carry", "_", .left),
    ("carry:1", "carry", "0", .left),
    ("carry:0", "done", "1", .stay),
    ("carry:_", "done", "1", .stay)] "right" "done"

/-- Exchanges zeros and ones. -/
def binaryInvert : Description :=
  describe "binary-invert" ["flip", "done"] ["0", "1"] "_" [
    ("flip:0", "flip", "1", .right),
    ("flip:1", "flip", "0", .right),
    ("flip:_", "done", "_", .stay)] "flip" "done"

/-- Writes as many ones as two states can and still halt. -/
def busyBeaver2 : Description :=
  describe "busy-beaver-2" ["A", "B", "H"] ["0", "1"] "0" [
    ("A:0", "B", "1", .right),
    ("A:1", "B", "1", .left),
    ("B:0", "A", "1", .left),
    ("B:1", "H", "1", .right)] "A" "H"

/-- Clears a binary number. -/
def erase : Description :=
  describe "erase" ["erase", "done"] ["0", "1"] "_" [
    ("erase:0", "erase", "_", .right),
    ("erase:1", "erase", "_", .right),
    ("erase:_", "done", "_", .stay)] "erase" "done"

/-- The descriptions with their sample tapes, in order. -/
def catalogue : List (Description × String) := [
  (unaryIncrement, "111"),
  (binaryIncrement, "1011"),
  (binaryInvert, "1010"),
  (busyBeaver2, ""),
  (erase, "1001")]

/-- The machines that can be built from the catalogue; one without a name is called by its place. -/
def builtins : List Builtin :=
  catalogue.zipIdx.filterMap fun ((description, sample), index) =>
    match description.build with
    | .ok machine => some ⟨machine.name.getD ("machine-" ++ toString index), machine, sample⟩
    | .error _ => none

/-- How many machines there are. -/
def count : Nat := builtins.length

/-- The names of the machines, in order. -/
def names : List String := builtins.map (·.name)

/-- The machine of a name with its sample tape. -/
def find (name : String) : Except Error Builtin :=
  match builtins.find? (·.name = name) with
  | some builtin => .ok builtin
  | none => .error (.unknownMachine (.named name))

/-- The machine at a place with its sample tape. -/
def get (index : Nat) : Except Error Builtin :=
  match builtins[index]? with
  | some builtin => .ok builtin
  | none => .error (.unknownMachine (.numbered index))

/-- What there is to say about the machine at a place. -/
def info (index : Nat) : Except Error Builtin.Info := do
  let ⟨name, machine, sample⟩ ← get index
  return {
    index, name, start := machine.start, halt := machine.halt, sample
    stateCount := machine.states.length
    transitionCount := machine.table.size }

end Library

end TapeMachine
