/-!
# Symbols and states

A symbol is one character and a state is any string, the empty one included. Descriptions spell
symbols as strings; exactly the one-character strings are symbols.
-/
namespace TapeMachine

/-- What a cell of the tape holds. -/
abbrev Symbol := Char

/-- The label of a state. -/
abbrev State := String

/-- The symbol that a string spells. -/
def Symbol.ofString? (text : String) : Option Symbol :=
  match text.toList with
  | [symbol] => some symbol
  | _ => none

theorem Symbol.ofString?_eq_some_iff {text : String} {symbol : Symbol} :
    Symbol.ofString? text = some symbol ↔ text = String.singleton symbol := by
  rw [← String.toList_inj]
  unfold Symbol.ofString?
  split <;> simp_all

@[simp]
theorem Symbol.ofString?_singleton (symbol : Symbol) :
    Symbol.ofString? (String.singleton symbol) = some symbol :=
  Symbol.ofString?_eq_some_iff.2 rfl

end TapeMachine
