import Mathlib
import TapeMachine.Ascending
/-!
# What an ascending list lists

An ascending list without repetitions is told by what is in it (`Lists.unique`), so that a report which
is listed in this way says the same in whatever order its items were found.
-/

namespace TapeMachine

open Std

/-- The items with a property and no others, each of them once and in ascending order. -/
structure Lists {α : Type} [LT α] (items : List α) (p : α → Prop) : Prop where
  ascending : items.Pairwise (· < ·)
  nodup : items.Nodup
  mem : ∀ x, x ∈ items ↔ p x

variable {α : Type} [LinearOrder α] {items items' : List α} {p q : α → Prop}

theorem lists_ascending [TransOrd α] [LawfulEqOrd α] (items : List α) :
    Lists (ascending items) (· ∈ items) where
  ascending := (pairwise_ascending items).imp compare_lt_iff_lt.1
  nodup := (pairwise_ascending items).imp fun h => (compare_lt_iff_lt.1 h).ne
  mem _ := mem_ascending

theorem Lists.congr (h : Lists items p) (hpq : ∀ x, p x ↔ q x) : Lists items q :=
  ⟨h.ascending, h.nodup, fun x => (h.mem x).trans (hpq x)⟩

theorem Lists.unique (h : Lists items p) (h' : Lists items' p) : items = items' := by
  refine List.Perm.eq_of_pairwise' h.ascending h'.ascending ?_
  rw [List.perm_ext_iff_of_nodup h.nodup h'.nodup]
  exact fun x => (h.mem x).trans (h'.mem x).symm

end TapeMachine
