import Std.Data.ExtTreeMap
import TapeMachine.Symbol
/-!
# Tapes

A tape is unbounded in both directions and blank almost everywhere. Only the cells that differ
from the blank are stored, so two tapes are equal exactly if they have the same blank and read
alike everywhere: `Tape.ext_read`. What each operation does is said through `Tape.read`.
-/
namespace TapeMachine

open Std

/-- Where a cell is. -/
abbrev Position := Int64

/-- A blank symbol and the cells that hold something else. -/
structure Tape where
  blank : Symbol
  cells : ExtTreeMap Position Symbol
  cells_ne_blank : ∀ p : Position, cells[p]? ≠ some blank
  deriving DecidableEq

namespace Tape

/-- The tape on which every cell is blank. -/
def empty (blank : Symbol) : Tape := ⟨blank, ∅, by simp⟩

/-- The symbol at a position. -/
def read (t : Tape) (p : Position) : Symbol := t.cells[p]?.getD t.blank

/-- The tape with `s` at `p`. Writing the blank clears the cell. -/
def write (t : Tape) (p : Position) (s : Symbol) : Tape :=
  if h : s = t.blank then
    { t with
      cells := t.cells.erase p
      cells_ne_blank := by
        intro q
        rw [ExtTreeMap.getElem?_erase]
        split
        · simp
        · exact t.cells_ne_blank q }
  else
    { t with
      cells := t.cells.insert p s
      cells_ne_blank := by
        intro q
        rw [ExtTreeMap.getElem?_insert]
        split
        · simpa using h
        · exact t.cells_ne_blank q }

/-- Writes characters to the right, the first of them at `first`. Those beyond the last position
have no cell. -/
def writeFrom (t : Tape) (first : Nat) : List Symbol → Tape
  | [] => t
  | s :: rest =>
    (if first < 2 ^ 63 then t.write (Int64.ofNat first) s else t).writeFrom (first + 1) rest

/-- The tape that holds a text from position 0 on. -/
def ofString (text : String) (blank : Symbol) : Tape := (empty blank).writeFrom 0 text.toList

/-- Whether the cell holds something else than the blank. -/
def isSet (t : Tape) (p : Position) : Bool := t.cells.contains p

/-- Whether every cell is blank. -/
def isBlank (t : Tape) : Bool := t.cells.isEmpty

/-- How many cells are not blank. -/
def size (t : Tape) : Nat := t.cells.size

/-- The cells that are not blank, from left to right. -/
def toList (t : Tape) : List (Position × Symbol) := t.cells.toList

/-- The leftmost and the rightmost position that is not blank. -/
def bounds? (t : Tape) : Option (Position × Position) := do
  let first ← t.cells.minKey?
  let last ← t.cells.maxKey?
  return (first, last)

/-- How many cells there are from one position to another, both included. -/
def span (first last : Position) : Nat := (last.toInt - first.toInt + 1).toNat

/-- The `count` symbols from `first` on. -/
def window (t : Tape) (first : Position) (count : Nat) : List Symbol :=
  (List.range count).map fun i => t.read (first + Int64.ofNat i)

/-- The text between the outermost cells that are not blank; the empty text if there are none. -/
def render (t : Tape) : String :=
  match t.bounds? with
  | none => ""
  | some (first, last) => String.ofList (t.window first (span first last))

/-! ## Reading after writing -/

@[simp] theorem blank_empty (b : Symbol) : (empty b).blank = b := rfl

@[simp] theorem read_empty (b : Symbol) (p : Position) : (empty b).read p = b := by
  simp [read, empty]

@[simp] theorem blank_write (t : Tape) (p : Position) (s : Symbol) :
    (t.write p s).blank = t.blank := by
  unfold write; split <;> rfl

theorem read_write (t : Tape) (p q : Position) (s : Symbol) :
    (t.write p s).read q = if q = p then s else t.read q := by
  unfold write read
  split
  · rename_i h
    by_cases hq : p = q <;> simp [ExtTreeMap.getElem?_erase, hq, h, Ne.symm]
  · by_cases hq : p = q <;> simp [ExtTreeMap.getElem?_insert, hq, Ne.symm]

@[simp] theorem read_write_self (t : Tape) (p : Position) (s : Symbol) :
    (t.write p s).read p = s := by simp [read_write]

theorem read_write_of_ne (t : Tape) {p q : Position} (s : Symbol) (h : q ≠ p) :
    (t.write p s).read q = t.read q := by simp [read_write, h]

theorem getElem?_cells (t : Tape) (p : Position) :
    t.cells[p]? = if t.read p = t.blank then none else some (t.read p) := by
  have h := t.cells_ne_blank p
  unfold read
  cases hc : t.cells[p]? <;> simp_all

/-- Tapes are equal if they have the same blank and read alike everywhere. -/
theorem ext_read {t u : Tape} (hb : t.blank = u.blank) (h : ∀ p, t.read p = u.read p) : t = u := by
  have hc : t.cells = u.cells := by
    apply ExtTreeMap.ext_getElem?
    intro p
    rw [getElem?_cells, getElem?_cells, hb, h p]
  cases t; cases u; simp_all

end Tape

end TapeMachine
