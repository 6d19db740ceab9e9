import TapeMachine.Decimal.Shortest
import TapeMachine.Text.Quoted
/-!
# Why and where a text stops being what is read

A fault has a cause and a place. While a text is read the place is the number of bytes still
unread; once the whole text is at hand it becomes a line and a column, both counted from the line
ends before it.
-/
namespace TapeMachine.Json

/-- A value that stands where one of another kind is due. -/
inductive Found where
  | null
  | boolean (value : Bool)
  | integer (value : Int)
  /-- A number with a fraction or an exponent, or one too large for 64 bits: its binary64 bits. -/
  | floating (bits : UInt64)
  | text (value : String)
  | array
  | object
  deriving DecidableEq

/-- Why a text cannot be read. -/
inductive Cause where
  | endInValue
  | endInList
  | endInObject
  | endInString
  | expectedValue
  | expectedWord
  | expectedColon
  | expectedListComma
  | expectedObjectComma
  | keyNotString
  | trailingComma
  | trailingCharacters
  | invalidNumber
  | numberOutOfRange
  | invalidEscape
  | controlCharacter
  | loneSurrogate
  | unpairedSurrogate
  | invalidType (found : Found) (expected : String)
  | invalidString (found expected : String)
  | invalidLength (length : Nat) (expected : String)
  | missingField (name : String)
  | duplicateField (name : String)
  | unknownVariant (found : String) (expected : List String)
  deriving DecidableEq

/-- Numbers are written without an exponent from a hundred-thousandth up to ten to the sixteenth. -/
def numberLayout : Decimal.Layout := ⟨-5, 15⟩

/-- A value by its kind and, if it has one, its content. -/
def Found.describe : Found → String
  | null => "null"
  | boolean value => "boolean `" ++ (if value then "true" else "false") ++ "`"
  | integer value => "integer `" ++ toString value ++ "`"
  | floating bits => "floating point `" ++ numberLayout.text bits ++ "`"
  | text value => "string " ++ Text.quoted value
  | array => "sequence"
  | object => "map"

/-- The cause in words. -/
def Cause.message : Cause → String
  | endInValue => "EOF while parsing a value"
  | endInList => "EOF while parsing a list"
  | endInObject => "EOF while parsing an object"
  | endInString => "EOF while parsing a string"
  | expectedValue => "expected value"
  | expectedWord => "expected ident"
  | expectedColon => "expected `:`"
  | expectedListComma => "expected `,` or `]`"
  | expectedObjectComma => "expected `,` or `\x7d`"
  | keyNotString => "key must be a string"
  | trailingComma => "trailing comma"
  | trailingCharacters => "trailing characters"
  | invalidNumber => "invalid number"
  | numberOutOfRange => "number out of range"
  | invalidEscape => "invalid escape"
  | controlCharacter => "control character (\\u0000-\\u001F) found while parsing a string"
  | loneSurrogate => "lone leading surrogate in hex escape"
  | unpairedSurrogate => "unexpected end of hex escape"
  | invalidType found expected => "invalid type: " ++ found.describe ++ ", expected " ++ expected
  | invalidString found expected =>
    "invalid value: string " ++ Text.quoted found ++ ", expected " ++ expected
  | invalidLength length expected =>
    "invalid length " ++ toString length ++ ", expected " ++ expected
  | missingField name => "missing field `" ++ name ++ "`"
  | duplicateField name => "duplicate field `" ++ name ++ "`"
  | unknownVariant found expected =>
    "unknown variant `" ++ found ++ "`, expected one of " ++
      ", ".intercalate (expected.map fun name => "`" ++ name ++ "`")

/-- How many bytes a text takes. -/
def byteCount (s : List Char) : Nat := s.foldl (fun n c => n + c.utf8Size) 0

/-- A cause, and how many bytes follow its place. -/
structure Fault where
  cause : Cause
  unread : Nat
  deriving DecidableEq

/-- A fault at the start of the unread text. -/
def Fault.here (cause : Cause) (rest : List Char) : Fault := ⟨cause, byteCount rest⟩

/-- A fault one byte into the unread text, or at the end if nothing is left. -/
def Fault.next (cause : Cause) (rest : List Char) : Fault := ⟨cause, byteCount rest - 1⟩

/-- A cause with the line and column of its place. -/
structure Error where
  cause : Cause
  line : Nat
  column : Nat
  deriving DecidableEq

/-- The line of a byte, counted from one, and its distance from the start of that line. -/
def locate (text : List Char) (index : Nat) : Nat × Nat :=
  let (_, line, start) := text.foldl (fun (offset, line, start) c =>
    let after := offset + c.utf8Size
    if offset < index ∧ c = '\n' then (after, line + 1, after) else (after, line, start)) (0, 1, 0)
  (line, index - start)

/-- Finds a fault's place in the text that was read. -/
def Fault.inText (fault : Fault) (text : List Char) : Error :=
  let (line, column) := locate text (byteCount text - fault.unread)
  ⟨fault.cause, line, column⟩

def Error.message (e : Error) : String :=
  e.cause.message ++ " at line " ++ toString e.line ++ " column " ++ toString e.column

end TapeMachine.Json
