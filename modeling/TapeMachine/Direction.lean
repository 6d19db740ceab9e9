/-!
# Directions

Where the head goes after a write, with the letter that spells it.
-/
namespace TapeMachine

/-- A move of the head by at most one cell. -/
inductive Direction where
  | left
  | right
  | stay
  deriving DecidableEq, Repr

namespace Direction

/-- All directions, in the order in which messages list them. -/
def all : List Direction := [left, right, stay]

/-- What the move adds to the head's position. -/
def offset : Direction → Int64
  | left => -1
  | right => 1
  | stay => 0

/-- The letter that spells the direction. -/
def letter : Direction → Char
  | left => 'L'
  | right => 'R'
  | stay => 'S'

/-- The direction that a string spells: one letter and nothing else. -/
def ofString? (text : String) : Option Direction :=
  all.find? fun d => text = String.singleton d.letter

theorem letter_injective : ∀ d e : Direction, d.letter = e.letter → d = e := by
  intro d e
  cases d <;> cases e <;> simp [letter]

@[simp]
theorem ofString?_letter (d : Direction) : ofString? (String.singleton d.letter) = some d := by
  cases d <;> rfl

end Direction

end TapeMachine
