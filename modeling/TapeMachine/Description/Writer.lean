import TapeMachine.Description
import TapeMachine.Json.Writer
/-!
# Writing descriptions

The fields come in the order of their declaration and a missing name is left out.
-/
namespace TapeMachine

open Json

/-- The letter of a direction in quotes. -/
def Direction.write (d : Direction) : List Char := writeString (String.singleton d.letter)

/-- An instruction as an array. -/
def Instruction.writeTo (layout : Layout) (i : Instruction) : List Char :=
  writeArray layout [writeString i.next, writeString i.write, i.direction.write]

/-- A transition as an object. -/
def Transition.writeTo (layout : Layout) (t : Transition) : List Char :=
  writeObject layout [
    ("next_state", writeString t.next),
    ("write", writeString (String.singleton t.write)),
    ("direction", t.direction.write)]

namespace Description

def writeTo (layout : Layout) (d : Description) : List Char :=
  let inner := layout.inner
  let name := d.name.toList.map fun name => ("name", writeString name)
  writeObject layout (name ++ [
    ("states", writeArray inner (d.states.map writeString)),
    ("alphabet", writeArray inner (d.alphabet.map writeString)),
    ("blank", writeString d.blank),
    ("transitions", writeObject inner (d.transitions.map fun (key, instruction) =>
      (key, instruction.writeTo inner.inner))),
    ("start", writeString d.start),
    ("halt", writeString d.halt)])

/-- The text of a description, indented. -/
def toJson (d : Description) : String := String.ofList (d.writeTo (.indented 0))

end Description

end TapeMachine
