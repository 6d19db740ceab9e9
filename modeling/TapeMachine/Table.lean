import Std.Data.ExtTreeMap
import TapeMachine.Key
import TapeMachine.Transition
/-!
# Transition tables

A table has a row for each state with transitions, and a row has a transition for each symbol it
defines. Two tables are equal exactly if they have the same rows, in whatever order these came.
-/
namespace TapeMachine

open Std

/-- A transition with the place where it applies. -/
structure Rule where
  state : State
  symbol : Symbol
  transition : Transition
  deriving DecidableEq, Repr

/-- The transitions of one state. -/
abbrev Row := ExtTreeMap Symbol Transition

/-- Transitions by state and then by symbol. -/
structure Table where
  rows : ExtTreeMap State Row
  deriving DecidableEq

namespace Table

def empty : Table := ⟨∅⟩

/-- The row of a state; a state without transitions has an empty one. -/
def row (t : Table) (state : State) : Row := t.rows[state]?.getD ∅

/-- The transition for a state that reads a symbol. -/
def lookup (t : Table) (state : State) (symbol : Symbol) : Option Transition :=
  (t.row state)[symbol]?

/-- The table with a transition set. -/
def insert (t : Table) (key : Key) (transition : Transition) : Table :=
  ⟨t.rows.insert key.state ((t.row key.state).insert key.symbol transition)⟩

/-- All transitions, by state and then by symbol. -/
def rules (t : Table) : List Rule :=
  t.rows.toList.flatMap fun (state, row) =>
    row.toList.map fun (symbol, transition) => ⟨state, symbol, transition⟩

/-- How many transitions there are. -/
def size (t : Table) : Nat := t.rows.foldl (fun n _ row => n + row.size) 0

@[simp] theorem lookup_empty (state : State) (symbol : Symbol) :
    empty.lookup state symbol = none := by
  simp [lookup, row, empty]

theorem row_insert (t : Table) (key : Key) (transition : Transition) (state : State) :
    (t.insert key transition).row state =
      if key.state = state then (t.row state).insert key.symbol transition else t.row state := by
  unfold row insert
  rw [ExtTreeMap.getElem?_insert]
  by_cases h : key.state = state
  · subst h
    simp [row]
  · simp [h]

theorem lookup_insert (t : Table) (key : Key) (transition : Transition) (state : State)
    (symbol : Symbol) :
    (t.insert key transition).lookup state symbol =
      if key.state = state ∧ key.symbol = symbol then some transition
      else t.lookup state symbol := by
  unfold lookup
  rw [row_insert]
  by_cases hs : key.state = state <;> by_cases hc : key.symbol = symbol <;>
    simp [hs, hc, ExtTreeMap.getElem?_insert]

end Table

end TapeMachine
