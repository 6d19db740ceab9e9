import Mathlib
import TapeMachine.Proofs.Tape.Extent
/-!
# What is seen of a tape

A tape can be listed, counted, asked for its bounds and whether it is blank, and rendered. Each of
these looks at the stored cells in its own way, and they agree: all of them can be told from the list
of the cells (`ObserversAgree`), which in turn is told by what is read. The list determines the tape,
in whatever order its cells are written again.
-/

namespace TapeMachine.Tape

open Std

variable {t : Tape} {p q first last : Position} {r s : Symbol} {writes : List (Position × Symbol)}

/-! ## The list of the cells -/

theorem mem_toList_iff : (p, s) ∈ t.toList ↔ t.read p = s ∧ s ≠ t.blank := by
  rw [toList, ExtTreeMap.mem_toList_iff_getElem?_eq_some, getElem?_cells_eq_some_iff]

theorem isSet_iff_exists_mem_toList : t.isSet p ↔ ∃ s, (p, s) ∈ t.toList := by
  simp only [isSet_iff, mem_toList_iff]
  constructor
  · exact fun h => ⟨_, rfl, h⟩
  · rintro ⟨s, rfl, h⟩
    exact h

theorem pairwise_toList (t : Tape) : t.toList.Pairwise fun a b => a.1 < b.1 :=
  ExtTreeMap.ordered_keys_toList.imp Std.compare_eq_lt.1

theorem length_toList (t : Tape) : t.toList.length = t.size :=
  ExtTreeMap.length_toList

theorem isBlank_iff_toList : t.isBlank ↔ t.toList = [] := by
  rw [isBlank, toList, ← List.isEmpty_iff, ExtTreeMap.isEmpty_toList]

/-- The bounds are where the list begins and ends. -/
theorem bounds?_eq_toList (t : Tape) : t.bounds? = do
    let first ← t.toList.head?
    let last ← t.toList.getLast?
    return (first.1, last.1) := by
  rw [bounds?, ExtTreeMap.minKey?_eq_head?_keys, ExtTreeMap.maxKey?_eq_getLast?_keys,
    ← ExtTreeMap.map_fst_toList_eq_keys, List.head?_map, List.getLast?_map, toList]
  cases t.cells.toList.head? <;> cases t.cells.toList.getLast? <;> rfl

theorem bounds?_eq_none_iff_toList : t.bounds? = none ↔ t.toList = [] := by
  rw [bounds?_eq_toList]
  cases t.toList <;> simp [List.getLast?_cons]

theorem span_pos (h : first ≤ last) : 0 < span first last := by
  have := Int64.le_iff_toInt_le.1 h
  unfold span
  omega

/-- Something is rendered of every tape that has bounds. -/
theorem render_eq_empty_iff : t.render = "" ↔ t.bounds? = none := by
  unfold render
  split
  · simp [*]
  · rename_i first last hb
    have hpos := span_pos ((bounds?_eq_some_iff.1 hb).2.2 last (bounds?_eq_some_iff.1 hb).2.1).1
    simp only [hb, reduceCtorEq, iff_false, ← String.toList_inj, String.toList_ofList]
    intro hnil
    have hlength := congrArg List.length hnil
    simp [window] at hlength
    omega

/-! ## Writing -/

/-- A tape is made again of its cells, whichever of them is written first. -/
theorem writeAll_of_perm_toList (h : writes.Perm t.toList) :
    (empty t.blank).writeAll writes = t := by
  refine ext_read (by simp) fun p => ?_
  have hmem : ∀ s, (p, s) ∈ writes ↔ t.cells[p]? = some s := by
    intro s
    rw [h.mem_iff, toList, ExtTreeMap.mem_toList_iff_getElem?_eq_some]
  rw [read_writeAll, lastWritten?_eq_of_mem_iff hmem, read_empty]
  rfl

theorem write_comm (h : p ≠ q) : (t.write p r).write q s = (t.write q s).write p r := by
  refine ext_read (by simp) fun x => ?_
  simp only [read_write]
  split
  · rename_i hq
    rw [if_neg (by rw [hq]; exact h.symm)]
  · rfl

/-! ## Agreement -/

/-- All that can be seen of a tape comes from the list of its cells, and so does the tape. -/
structure ObserversAgree (t : Tape) : Prop where
  ascending : t.toList.Pairwise fun a b => a.1 < b.1
  mem_iff : ∀ p s, (p, s) ∈ t.toList ↔ t.read p = s ∧ s ≠ t.blank
  isSet_iff : ∀ p, t.isSet p ↔ ∃ s, (p, s) ∈ t.toList
  size : t.size = t.toList.length
  isBlank_iff : t.isBlank ↔ t.toList = []
  bounds?_none_iff : t.bounds? = none ↔ t.toList = []
  render_iff : t.render = "" ↔ t.toList = []
  bounds? : ∀ h : t.toList ≠ [], t.bounds? = some ((t.toList.head h).1, (t.toList.getLast h).1)
  writeAll : ∀ writes, writes.Perm t.toList → (empty t.blank).writeAll writes = t
  write_comm : ∀ p q r s, p ≠ q → (t.write p r).write q s = (t.write q s).write p r

/-- The observers of every tape agree with each other and determine it. -/
theorem observersAgree (t : Tape) : ObserversAgree t where
  ascending := t.pairwise_toList
  mem_iff _ _ := mem_toList_iff
  isSet_iff _ := isSet_iff_exists_mem_toList
  size := t.length_toList.symm
  isBlank_iff := isBlank_iff_toList
  bounds?_none_iff := bounds?_eq_none_iff_toList
  render_iff := render_eq_empty_iff.trans bounds?_eq_none_iff_toList
  bounds? h := by
    rw [bounds?_eq_toList, List.head?_eq_some_head h, List.getLast?_eq_some_getLast h]
    rfl
  writeAll _ := writeAll_of_perm_toList
  write_comm _ _ _ _ := Tape.write_comm

end TapeMachine.Tape
