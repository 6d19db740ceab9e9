import TapeMachine.Description.Reader
import TapeMachine.Description.Writer
import TapeMachine.Error
import TapeMachine.Machine
/-!
# From descriptions to machines and back

A description is built into a machine if every symbol and every key in it can be read and no key
comes twice; what it declares is not looked at. The first thing that is wrong is reported: the
blank, the alphabet in order, then the transitions in order, and of a transition its key, its
symbol, its repetition. A machine is described with its transitions sorted by the text of their
keys.
-/
namespace TapeMachine

/-- The symbol that a part of a description spells. -/
def Symbol.parse (part value : String) : Except Error Symbol :=
  match Symbol.ofString? value with
  | some symbol => .ok symbol
  | none => .error (.malformedDescription (.symbol part value))

/-- The key that a text spells. -/
def Key.read (text : String) : Except Error Key :=
  match Key.parse text with
  | .ok key => .ok key
  | .error fault => .error (.malformedDescription (.key text fault))

/-- Adds a transition as it is written to a table. -/
def Table.addEntry (table : Table) (text : String) (instruction : Instruction) :
    Except Error Table := do
  let key ← Key.read text
  let write ← Symbol.parse ("write symbol of " ++ Text.quoted text) instruction.write
  match table.lookup key.state key.symbol with
  | some _ => throw (.duplicateKey key)
  | none => return table.insert key ⟨instruction.next, write, instruction.direction⟩

/-- The table of transitions as they are written. -/
def Table.ofEntries (entries : List (String × Instruction)) : Except Error Table :=
  entries.foldlM (fun table (text, instruction) => table.addEntry text instruction) .empty

/-- Builds the machine that a description describes. -/
def Description.build (d : Description) : Except Error Machine := do
  let blank ← Symbol.parse "blank" d.blank
  let alphabet ← d.alphabet.mapM (Symbol.parse "alphabet symbol")
  let table ← Table.ofEntries d.transitions
  return {
    name := d.name, states := d.states, alphabet, blank, table, start := d.start, halt := d.halt }

/-- Reads a description. -/
def Description.read (text : String) : Except Error Description :=
  match Description.ofJson text with
  | .ok d => .ok d
  | .error error => .error (.malformedDescription (.json error))

namespace Machine

/-- Builds the machine that a text describes. -/
def ofJson (text : String) : Except Error Machine := do (← Description.read text).build

/-- The most bytes that a text may have to be loaded. -/
def sizeLimit : Nat := 65536

/-- Builds the machine that a text describes unless the text is too large. -/
def load (text : String) : Except Error Machine :=
  if sizeLimit < text.utf8ByteSize then .error (.file (.tooLarge text.utf8ByteSize sizeLimit))
  else ofJson text

/-- Builds the machine that the text at a path describes. -/
def loadFrom (source : Files.Source) (path : String) : Except Error Machine :=
  match source path with
  | .ok text => load text
  | .error failure => .error (.file (.unreadable path failure))

/-- The transitions as they are written, in the order of the table. -/
def entries (m : Machine) : List (String × Instruction) :=
  m.table.rules.map fun rule =>
    (Key.format ⟨rule.state, rule.symbol⟩, rule.transition.toInstruction)

/-- Describes the machine. -/
def toDescription (m : Machine) : Description where
  name := m.name
  states := m.states
  alphabet := m.alphabet.map String.singleton
  blank := String.singleton m.blank
  transitions := m.entries.mergeSort fun a b => a.1 ≤ b.1
  start := m.start
  halt := m.halt

end Machine

end TapeMachine
