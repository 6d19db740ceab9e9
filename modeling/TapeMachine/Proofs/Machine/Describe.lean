import Mathlib
import TapeMachine.Proofs.Machine.Build
/-!
# Machines described

A machine is described with its entries in the order of the text of their keys, by code points. That
is another order than the table's where a state begins another one's name: `a!:0` comes before `a:0`.
`redescribed_of_build`: describing undoes building up to that order, building undoes describing, and
the order of the entries makes no difference to either.
-/

namespace TapeMachine

/-- The entries by the text of their keys. -/
def sortedByKey (entries : List Entry) : List Entry := entries.mergeSort fun a b => a.1 ≤ b.1

variable {entries entries' : List Entry}

theorem perm_sortedByKey (entries : List Entry) : (sortedByKey entries).Perm entries :=
  List.mergeSort_perm _ _

theorem pairwise_sortedByKey (h : (entries.map (·.1)).Nodup) :
    (sortedByKey entries).Pairwise fun a b => a.1 < b.1 := by
  have hle : (sortedByKey entries).Pairwise fun a b => a.1 ≤ b.1 := by
    refine (List.pairwise_mergeSort ?_ ?_ entries).imp of_decide_eq_true
    · intro a b c hab hbc
      simp only [decide_eq_true_eq] at hab hbc ⊢
      exact le_trans hab hbc
    · intro a b
      simpa using le_total a.1 b.1
  have hne : (sortedByKey entries).Pairwise fun a b => a.1 ≠ b.1 :=
    List.pairwise_map.1 (((perm_sortedByKey entries).map _).nodup_iff.2 h)
  exact hle.imp₂ (fun _ _ => lt_of_le_of_ne) hne

/-- With distinct keys there is only one such order. -/
theorem sortedByKey_congr (hp : entries.Perm entries') (h : (entries.map (·.1)).Nodup) :
    sortedByKey entries = sortedByKey entries' := by
  have h' : (entries'.map (·.1)).Nodup := (hp.map _).nodup_iff.1 h
  -- lists with the same entries that are both strictly sorted are equal
  refine List.Perm.eq_of_pairwise (fun a b _ _ hab hba => ?_) (pairwise_sortedByKey h)
    (pairwise_sortedByKey h') ?_
  · exact absurd (hab.trans hba) (lt_irrefl _)
  · exact (perm_sortedByKey entries).trans (hp.trans (perm_sortedByKey entries').symm)

variable {d : Description} {m : Machine}

/-- What describing a machine does to the description that it was built from. -/
structure Redescribed (d : Description) (m : Machine) : Prop where
  /-- Nothing but the order of the transitions changes. -/
  rest : m.toDescription = { d with transitions := m.toDescription.transitions }
  perm : m.toDescription.transitions.Perm d.transitions
  sorted : m.toDescription.transitions.Pairwise fun a b => a.1 < b.1
  rebuilt : m.toDescription.build = .ok m
  /-- In whatever order the entries come, the machine is the same. -/
  reordered : ∀ entries, entries.Perm d.transitions →
    ({ d with transitions := entries } : Description).build = .ok m
  /-- In whatever order the table is gone through, the description is the same. -/
  relisted : ∀ listing, listing.Perm m.entries → sortedByKey listing = m.toDescription.transitions

theorem build_perm (h : d.build = .ok m) (hp : entries.Perm d.transitions) :
    ({ d with transitions := entries } : Description).build = .ok m := by
  obtain ⟨hd, hc, hh⟩ := Description.build_eq_ok_iff.1 h
  refine Description.build_eq_ok_iff.2 ⟨?_, hc.perm hp.symm, hh.perm hp.symm⟩
  rw [hd]

theorem redescribed_of_build (d : Description) (m : Machine) (h : d.build = .ok m) :
    Redescribed d m := by
  obtain ⟨hd, hc, hh⟩ := Description.build_eq_ok_iff.1 h
  have hentries : m.entries.Perm d.transitions := Machine.perm_entries hc hh
  have hperm : m.toDescription.transitions.Perm d.transitions :=
    (perm_sortedByKey m.entries).trans hentries
  have hdistinct : (m.entries.map (·.1)).Nodup := (hentries.map _).nodup_iff.2 hc.distinct
  have hrest : m.toDescription = { d with transitions := m.toDescription.transitions } := by rw [hd]
  refine ⟨hrest, hperm, pairwise_sortedByKey hdistinct, ?_, fun _ => build_perm h, ?_⟩
  · rw [hrest]
    exact build_perm h hperm
  · intro listing hl
    exact (sortedByKey_congr hl.symm hdistinct).symm

theorem redescribed_of_build_backAndForth :
    Description.backAndForth.build = .ok .backAndForth ∧ Redescribed .backAndForth .backAndForth :=
  ⟨Description.build_backAndForth, redescribed_of_build _ _ Description.build_backAndForth⟩

/-- The states of the table come in another order than the keys of the description. -/
example :
    Machine.backAndForth.entries.map (·.1) = ["a:0", "a:_", "a!:_"] ∧
      Machine.backAndForth.toDescription.transitions.map (·.1) = ["a!:_", "a:0", "a:_"] := by
  cbv

end TapeMachine
