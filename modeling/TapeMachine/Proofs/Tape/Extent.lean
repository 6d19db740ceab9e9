import Mathlib
import TapeMachine.Proofs.Tape.History
/-!
# How far a tape is written

The bounds of a tape are the outermost of its cells that are set (`bounds?_eq_some_iff`), and its size
is the number of cells that are. Both depend on which cells are set and on nothing else:
`bounds?_congr`, `size_eq_of_perm`.
-/

namespace TapeMachine.Tape

open Std

variable {t u : Tape} {p q first last : Position} {s : Symbol}

/-! ## Cells that are set -/

theorem mem_cells_iff : p ∈ t.cells ↔ t.isSet p :=
  ExtTreeMap.contains_iff_mem.symm

theorem isBlank_iff : t.isBlank ↔ ∀ p, ¬ t.isSet p := by
  rw [isBlank, ExtTreeMap.isEmpty_iff, ExtTreeMap.eq_empty_iff_forall_not_mem]
  simp only [mem_cells_iff]

/-- A write sets no other cell than the one that is written to. -/
theorem eq_or_isSet_of_write (h : (t.write q s).isSet p) : p = q ∨ t.isSet p := by
  rw [isSet_iff, blank_write] at h
  by_cases hp : p = q
  · exact .inl hp
  · rw [read_write_of_ne t s hp] at h
    exact .inr ((isSet_iff t p).2 h)

/-- Tapes have the same size if their set cells correspond one to one. -/
theorem size_eq_of_perm (f : Equiv.Perm Position) (h : ∀ p, u.isSet (f p) ↔ t.isSet p) :
    u.size = t.size := by
  have hperm : u.cells.keys.Perm (t.cells.keys.map f) := by
    rw [List.perm_ext_iff_of_nodup ExtTreeMap.nodup_keys (ExtTreeMap.nodup_keys.map f.injective)]
    intro p
    rw [ExtTreeMap.mem_keys, mem_cells_iff, List.mem_map]
    constructor
    · intro hp
      refine ⟨f.symm p, ?_, f.apply_symm_apply p⟩
      rwa [ExtTreeMap.mem_keys, mem_cells_iff, ← h, f.apply_symm_apply]
    · rintro ⟨q, hq, rfl⟩
      rwa [h, ← mem_cells_iff, ← ExtTreeMap.mem_keys]
  have hlength := hperm.length_eq
  rwa [List.length_map, ExtTreeMap.length_keys, ExtTreeMap.length_keys] at hlength

/-! ## Bounds -/

theorem bounds?_eq_some_iff :
    t.bounds? = some (first, last) ↔
      t.isSet first ∧ t.isSet last ∧ ∀ p, t.isSet p → first ≤ p ∧ p ≤ last := by
  have hfirst : t.cells.minKey? = some first ↔ t.isSet first ∧ ∀ p, t.isSet p → first ≤ p := by
    simp only [ExtTreeMap.minKey?_eq_some_iff_mem_and_forall, Std.isLE_compare, mem_cells_iff]
  have hlast : t.cells.maxKey? = some last ↔ t.isSet last ∧ ∀ p, t.isSet p → p ≤ last := by
    simp only [ExtTreeMap.maxKey?_eq_some_iff_mem_and_forall, Std.isLE_compare, mem_cells_iff]
  have hbounds : t.bounds? = some (first, last) ↔
      t.cells.minKey? = some first ∧ t.cells.maxKey? = some last := by
    unfold bounds?
    cases t.cells.minKey? <;> cases t.cells.maxKey? <;> simp
  rw [hbounds, hfirst, hlast]
  constructor
  · rintro ⟨⟨hf, hle⟩, hl, hge⟩
    exact ⟨hf, hl, fun p hp => ⟨hle p hp, hge p hp⟩⟩
  · rintro ⟨hf, hl, h⟩
    exact ⟨⟨hf, fun p hp => (h p hp).1⟩, hl, fun p hp => (h p hp).2⟩

/-- A tape has no bounds if and only if no cell is set. -/
theorem bounds?_eq_none_iff : t.bounds? = none ↔ ∀ p, ¬ t.isSet p := by
  rw [← isBlank_iff, isBlank, ExtTreeMap.isEmpty_iff, ← ExtTreeMap.minKey?_eq_none_iff]
  unfold bounds?
  cases hmin : t.cells.minKey? with
  | none => simp
  | some first =>
    have hmax : t.cells.maxKey? ≠ none := by
      rw [ne_eq, ExtTreeMap.maxKey?_eq_none_iff, ← ExtTreeMap.minKey?_eq_none_iff, hmin]
      simp
    obtain ⟨last, hlast⟩ := Option.ne_none_iff_exists'.1 hmax
    simp [hlast]

theorem bounds?_congr (h : ∀ p, t.isSet p ↔ u.isSet p) : t.bounds? = u.bounds? := by
  cases hu : u.bounds? with
  | none =>
    rw [bounds?_eq_none_iff] at hu ⊢
    exact fun p => mt (h p).1 (hu p)
  | some bounds =>
    obtain ⟨first, last⟩ := bounds
    rw [bounds?_eq_some_iff] at hu ⊢
    obtain ⟨hfirst, hlast, hall⟩ := hu
    exact ⟨(h first).2 hfirst, (h last).2 hlast, fun p hp => hall p ((h p).1 hp)⟩

end TapeMachine.Tape
