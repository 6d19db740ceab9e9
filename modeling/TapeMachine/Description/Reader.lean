import TapeMachine.Description
import TapeMachine.Json.Reader.Container
import TapeMachine.Json.Reader.Record
/-!
# Reading descriptions

A description is a record with seven fields of which only the name may be missing. The readers of
its parts, directions, instructions and transitions, stand on their own.
-/
namespace TapeMachine

open Json (Reader)
open Json.Reader (RecordField Shape)

/-! ## Directions -/

/-- A direction is one of three letters. -/
def Direction.reader : Reader Direction :=
  .variant (Direction.all.map fun d => (String.singleton d.letter, d))

/-! ## Instructions -/

/-- The slots of an instruction or a transition, whose symbol is an `α`. -/
structure TransitionSlots (α : Type) where
  next : Option State := none
  write : Option α := none
  direction : Option Direction := none

/-- The fields of an instruction or a transition. -/
def TransitionSlots.fields {α : Type} (symbol : Reader α) :
    List (RecordField (TransitionSlots α)) := [
  .ofSlot "next_state" (·.next) (fun x slots => { slots with next := x }) .string,
  .ofSlot "write" (·.write) (fun x slots => { slots with write := x }) symbol,
  .ofSlot "direction" (·.direction) (fun x slots => { slots with direction := x })
    Direction.reader]

/-- The three parts, or the name of the first that is missing. -/
def TransitionSlots.complete {α β : Type} (make : State → α → Direction → β)
    (slots : TransitionSlots α) : Except String β :=
  match slots with
  | ⟨none, _, _⟩ => .error "next_state"
  | ⟨_, none, _⟩ => .error "write"
  | ⟨_, _, none⟩ => .error "direction"
  | ⟨some next, some write, some direction⟩ => .ok (make next write direction)

/-- An instruction is an array of three. -/
def Instruction.reader : Reader Instruction :=
  .tuple {
    title := "tuple struct TransitionSpec"
    fields := TransitionSlots.fields .string
    blank := {}
    complete := TransitionSlots.complete Instruction.mk }

/-- Reads a string that spells a symbol. -/
def Symbol.reader : Reader Symbol :=
  .text "a character" fun text =>
    match Symbol.ofString? text with
    | some symbol => .ok symbol
    | none => .error (.invalidString text "a character")

/-- A transition by itself is an object or an array. -/
def Transition.reader : Reader Transition :=
  .record {
    title := "struct Transition"
    fields := TransitionSlots.fields Symbol.reader
    blank := {}
    complete := TransitionSlots.complete Transition.mk }

/-! ## Descriptions -/

namespace Description

/-- The slots of a description. The name may be there and null. -/
structure Slots where
  name : Option (Option String) := none
  states : Option (List State) := none
  alphabet : Option (List String) := none
  blank : Option String := none
  transitions : Option (List (String × Instruction)) := none
  start : Option State := none
  halt : Option State := none

/-- Reads the transitions in the order of the text. -/
def entriesReader : Reader (List (String × Instruction)) :=
  .entries "a map of \"state:symbol\" keys to [next_state, write_symbol, direction]"
    Instruction.reader

def Slots.fields : List (RecordField Slots) := [
  .ofSlot "name" (·.name) (fun x slots => { slots with name := x }) (.nullable .string),
  .ofSlot "states" (·.states) (fun x slots => { slots with states := x }) (.list .string),
  .ofSlot "alphabet" (·.alphabet) (fun x slots => { slots with alphabet := x }) (.list .string),
  .ofSlot "blank" (·.blank) (fun x slots => { slots with blank := x }) .string,
  .ofSlot "transitions" (·.transitions) (fun x slots => { slots with transitions := x })
    entriesReader,
  .ofSlot "start" (·.start) (fun x slots => { slots with start := x }) .string,
  .ofSlot "halt" (·.halt) (fun x slots => { slots with halt := x }) .string]

/-- The description, or the name of the first field that is missing. -/
def Slots.complete (slots : Slots) : Except String Description := do
  let need {α : Type} (slot : Option α) (name : String) : Except String α :=
    match slot with
    | some x => .ok x
    | none => .error name
  return {
    name := slots.name.join
    states := ← need slots.states "states"
    alphabet := ← need slots.alphabet "alphabet"
    blank := ← need slots.blank "blank"
    transitions := ← need slots.transitions "transitions"
    start := ← need slots.start "start"
    halt := ← need slots.halt "halt" }

def reader : Reader Description :=
  .record {
    title := "struct MachineDescription"
    fields := Slots.fields
    blank := {}
    complete := Slots.complete }

/-- Reads a description from a whole text. -/
def ofJson (text : String) : Except Json.Error Description := reader.parse text

end Description

end TapeMachine
