import TapeMachine.Text.Unprintable
/-!
# Quoted text

Messages show strings between double quotes and characters between single ones. The mark itself
and the backslash take a backslash; the common controls have letters; whatever else would not
show is written by its code point.
-/
namespace TapeMachine.Text

/-- How `c` is spelled between two `mark`s. -/
def escape (mark c : Char) : List Char :=
  if c = mark ∨ c = '\\' then ['\\', c]
  else if c = '\x00' then ['\\', '0']
  else if c = '\t' then ['\\', 't']
  else if c = '\n' then ['\\', 'n']
  else if c = '\r' then ['\\', 'r']
  else if isUnprintable c then ['\\', 'u', '{'] ++ Nat.toDigits 16 c.toNat ++ ['}']
  else [c]

/-- A string between double quotes. -/
def quoted (s : String) : String :=
  String.ofList ('"' :: s.toList.flatMap (escape '"') ++ ['"'])

/-- A character between single quotes. -/
def quotedChar (c : Char) : String :=
  String.ofList ('\x27' :: escape '\x27' c ++ ['\x27'])

/-- Items between square brackets, set off by commas. -/
def bracketed (items : List String) : String :=
  "[" ++ ", ".intercalate items ++ "]"

theorem escape_self (mark : Char) : escape mark mark = ['\\', mark] := by simp [escape]

/-- Letters, digits and most marks of ASCII stand for themselves. -/
theorem escape_of_ascii {mark c : Char} (low : 0x20 ≤ c.toNat) (high : c.toNat ≤ 0x7e)
    (plain : c ≠ mark ∧ c ≠ '\\') : escape mark c = [c] := by
  have control (d : Char) (hd : d.toNat < 0x20) : c ≠ d := by rintro rfl; omega
  simp [escape, plain, control, isUnprintable_eq_false_of_ascii low high]

end TapeMachine.Text
