import TapeMachine.Json.Fault
/-!
# Writing JSON

Values are written compactly, or indented with one element to a line. Strings escape only what
they must: quotes, backslashes and the controls below the space.
-/
namespace TapeMachine.Json

/-- How values are set out: on one line, or indented and at some depth. -/
inductive Layout where
  | compact
  | indented (depth : Nat)

namespace Layout

/-- The layout of what stands inside a container. -/
def inner : Layout → Layout
  | compact => compact
  | indented depth => indented (depth + 1)

/-- What stands before an element and before a closing bracket. -/
def lineBreak : Layout → List Char
  | compact => []
  | indented depth => '\n' :: List.replicate (2 * depth) ' '

/-- What stands between a name and its value. -/
def colon : Layout → List Char
  | compact => [':']
  | indented _ => [':', ' ']

end Layout

/-- How a character stands in a string. -/
def writeChar (c : Char) : List Char :=
  if c = '"' ∨ c = '\\' then ['\\', c]
  else if c = '\x08' then ['\\', 'b']
  else if c = '\t' then ['\\', 't']
  else if c = '\n' then ['\\', 'n']
  else if c = '\x0c' then ['\\', 'f']
  else if c = '\r' then ['\\', 'r']
  else if c < ' ' then
    ['\\', 'u', '0', '0', Nat.digitChar (c.toNat / 16), Nat.digitChar (c.toNat % 16)]
  else [c]

def writeString (s : String) : List Char :=
  '"' :: s.toList.flatMap writeChar ++ ['"']

/-- Elements between brackets, each after a line break of its own. -/
def writeBlock (layout : Layout) (opening closing : Char) (elements : List (List Char)) :
    List Char :=
  if elements = [] then [opening, closing]
  else
    opening :: [','].intercalate (elements.map (layout.inner.lineBreak ++ ·)) ++
      layout.lineBreak ++ [closing]

/-- An array of elements that have been written in the inner layout. -/
def writeArray (layout : Layout) (elements : List (List Char)) : List Char :=
  writeBlock layout '[' ']' elements

/-- An object of members whose values have been written in the inner layout. -/
def writeObject (layout : Layout) (members : List (String × List Char)) : List Char :=
  writeBlock layout '{' '}' (members.map fun (name, value) =>
    writeString name ++ layout.colon ++ value)

end TapeMachine.Json
