import Mathlib
import TapeMachine.Table
/-!
# Tables and their rules

The list of a table's rules holds just what can be looked up, each rule once (`mem_rules`,
`nodup_rules`). Only rows without a transition could tell apart two tables in which the same is
found, and a table that is filled by `insert` has none: `ext_lookup`.
-/

namespace TapeMachine.Table

open Std

variable {t u : Table} {rule : Rule}

theorem mem_rules : rule ∈ t.rules ↔ t.lookup rule.state rule.symbol = some rule.transition := by
  obtain ⟨state, symbol, transition⟩ := rule
  unfold rules lookup row
  cases hrow : t.rows[state]? with
  | none => simp [ExtTreeMap.mem_toList_iff_getElem?_eq_some, hrow]
  | some row => simp [ExtTreeMap.mem_toList_iff_getElem?_eq_some, hrow]

theorem nodup_rules (t : Table) : t.rules.Nodup := by
  rw [rules, List.nodup_flatMap]
  constructor
  · -- the symbols of a row differ
    rintro ⟨state, row⟩ -
    rw [List.Nodup, List.pairwise_map]
    refine ExtTreeMap.distinct_keys_toList.imp fun hne heq => hne ?_
    simpa using congrArg Rule.symbol heq
  · -- and so do the states of two rows
    refine ExtTreeMap.distinct_keys_toList.imp fun hne => ?_
    rw [Function.onFun, List.disjoint_left]
    rintro rule ha hb
    obtain ⟨_, -, rfl⟩ := List.mem_map.1 ha
    obtain ⟨_, -, heq⟩ := List.mem_map.1 hb
    have hstate := congrArg Rule.state heq
    exact hne (Std.compare_eq_iff_eq.2 hstate.symm)

theorem length_rules (t : Table) : t.rules.length = t.size := by
  rw [rules, size, ExtTreeMap.foldl_eq_foldl_toList, List.length_flatMap, ← List.foldl_map,
    ← List.sum_eq_foldl]
  simp [ExtTreeMap.length_toList]

/-- Every row that is there has a transition. -/
def NoEmptyRow (t : Table) : Prop := ∀ (state : State) (row : Row), t.rows[state]? = some row → row ≠ ∅

theorem noEmptyRow_empty : empty.NoEmptyRow := by
  simp [NoEmptyRow, empty]

theorem NoEmptyRow.insert (h : t.NoEmptyRow) (key : Key) (transition : Transition) :
    (t.insert key transition).NoEmptyRow := by
  intro state row hrow
  rw [Table.insert, ExtTreeMap.getElem?_insert] at hrow
  split at hrow
  · cases hrow
    simp
  · exact h state row hrow

/-- A row is there if and only if something is found in it. -/
theorem NoEmptyRow.getElem?_rows (h : t.NoEmptyRow) (state : State) :
    t.rows[state]? = if t.row state = ∅ then none else some (t.row state) := by
  unfold row
  cases hrow : t.rows[state]? with
  | none => simp
  | some row => simp [h state row hrow]

theorem ext_lookup (ht : t.NoEmptyRow) (hu : u.NoEmptyRow)
    (h : ∀ state symbol, t.lookup state symbol = u.lookup state symbol) : t = u := by
  have hrow : ∀ state, t.row state = u.row state := by
    intro state
    exact ExtTreeMap.ext_getElem? fun symbol => h state symbol
  -- a row that is missing looks like one that is empty, but here there are none of these
  have hrows : t.rows = u.rows := by
    refine ExtTreeMap.ext_getElem? fun state => ?_
    rw [ht.getElem?_rows, hu.getElem?_rows, hrow]
  cases t; cases u; simp_all

end TapeMachine.Table
