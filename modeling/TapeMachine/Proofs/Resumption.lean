import Mathlib
import TapeMachine.Proofs.Trajectory
/-!
# Steps, runs and budgets

An execution can be stepped and then run, and a run can be given a larger budget. `agree_of_stepped`:
as long as the steps taken fit the budget the run comes to what it would have come to at once, and a
larger budget changes a run only if the smaller one was used up.
-/

namespace TapeMachine.Execution

variable {σ : Type} {e e' : Execution} {halt : Halt} {budget budget' : StepCount} {n : Nat}

/-! ## Running on -/

/-- A step that fits the budget can be taken before the run or by it. -/
theorem run_next (observer : Observer σ) (memory : σ) (ho : e.steps.toNat + 1 < 2 ^ 64)
    (hb : e.next.steps ≤ budget) :
    (e.next.run observer budget memory).1 = (e.run .silent budget ()).1 := by
  obtain ⟨n, halt, h⟩ := exists_stopsAfter budget e.next
  rw [run_fst observer memory h]
  cases hu : e.upcoming with
  | error halt' =>
    rw [next_of_error hu] at h ⊢
    rw [run_fst .silent () h]
  | ok t =>
    have hlt : e.steps < budget := by
      rw [next_of_ok hu, UInt64.le_iff_toNat_le, toNat_steps_apply t ho] at hb
      exact UInt64.lt_iff_toNat_lt.2 hb
    have h' := stopsAfter_succ_iff.2 ⟨stop?_eq_none_iff.2 ⟨hlt, t, hu⟩, h⟩
    rw [run_fst .silent () h', after_succ']

theorem run_after (observer : Observer σ) (memory : σ) (ho : e.steps.toNat + n < 2 ^ 64)
    (hb : (e.after n).steps ≤ budget) :
    ((e.after n).run observer budget memory).1 = (e.run .silent budget ()).1 := by
  induction n generalizing σ with
  | zero =>
    obtain ⟨n, halt, h⟩ := exists_stopsAfter budget e
    rw [after_zero, run_fst observer memory h, run_fst .silent () h]
  | succ n ih =>
    -- the last step is given to the run first: the steps before it fit the budget if it does
    have hle := (toNat_steps_after (e := e) (n := n) (by omega)).2
    have hmono := (toNat_steps_after (e := e.after n) (n := 1) (by omega)).1
    rw [after_succ] at hb ⊢
    rw [run_next observer memory (by omega) hb]
    refine ih .silent () (by omega) ?_
    rw [UInt64.le_iff_toNat_le] at hb ⊢
    exact hmono.trans hb

/-- A run that starts beyond its budget does nothing. -/
theorem run_of_lt (observer : Observer σ) (memory : σ) (hb : budget < e.steps) :
    (e.run observer budget memory).1 =
      ⟨e.tape, e.steps, e.state, e.head, if e.isHalted then .halted else .budgetExceeded⟩ := by
  have hs : e.stop? budget = some (if e.isHalted then .halted else .budgetExceeded) := by
    have hle : budget ≤ e.steps := UInt64.le_of_lt hb
    by_cases hh : e.isHalted <;> simp [stop?, hh, hle]
  rw [run_fst observer memory (stopsAfter_zero_iff.2 hs)]
  rfl

/-- An execution that a step has stopped stays as it is and is stopped for the same reason again. -/
theorem stepped_of_stopped (observer : Observer σ) (memory : σ)
    (h : (e.step observer memory).1 = .stopped halt)
    (hs : Stepped (e.step observer memory).2.1 n e') :
    e' = e ∧ ∀ (τ : Type) (observer' : Observer τ) (memory' : τ),
      (e'.step observer' memory').1 = .stopped halt ∧ (e'.step observer' memory').2.1 = e' := by
  rw [step_fst_eq_stopped_iff] at h
  rw [step_snd, next_of_error h, stepped_iff, after_of_error h] at hs
  subst hs
  refine ⟨rfl, fun τ observer' memory' => ⟨?_, ?_⟩⟩
  · rw [step_fst_eq_stopped_iff, h]
  · rw [step_snd, next_of_error h]

/-! ## Larger budgets -/

theorem stop?_mono (hb : budget ≤ budget') (h : e.stop? budget ≠ some .budgetExceeded) :
    e.stop? budget' = e.stop? budget := by
  cases hs : e.stop? budget with
  | none =>
    obtain ⟨hlt, ht⟩ := stop?_eq_none_iff.1 hs
    exact stop?_eq_none_iff.2 ⟨UInt64.lt_of_lt_of_le hlt hb, ht⟩
  | some halt =>
    rw [stop?_eq_some_iff]
    rcases stop?_eq_some_iff.1 hs with hh | ⟨-, -, rfl⟩ | ⟨hh, hlt, ht⟩
    · exact .inl hh
    · exact absurd hs h
    · exact .inr (.inr ⟨hh, UInt64.lt_of_lt_of_le hlt hb, ht⟩)

theorem StopsAfter.moves_mono (h : e.StopsAfter budget n halt) (hb : budget ≤ budget') {i : Nat}
    (hi : i < n) : (e.after i).stop? budget' = none := by
  rw [stop?_mono hb, h.moves i hi]
  simp [h.moves i hi]

/-- A run that does not use up its budget is not changed by a larger one. -/
theorem StopsAfter.mono (h : e.StopsAfter budget n halt) (hb : budget ≤ budget')
    (hne : halt ≠ .budgetExceeded) : e.StopsAfter budget' n halt := by
  refine ⟨fun i hi => h.moves_mono hb hi, ?_⟩
  rw [stop?_mono hb, h.stops]
  simpa [h.stops] using hne

theorem StopsAfter.le_of_le {n' : Nat} {halt' : Halt} (h : e.StopsAfter budget n halt)
    (h' : e.StopsAfter budget' n' halt') (hb : budget ≤ budget') : n ≤ n' := by
  by_contra hlt
  have := h.moves_mono hb (Nat.lt_of_not_le hlt)
  rw [h'.stops] at this
  cases this

theorem StopsAfter.steps_eq_budget (h : e.StopsAfter budget n .budgetExceeded)
    (he : e.steps ≤ budget) : (e.after n).steps = budget := by
  have hle := h.steps_add_le he
  rcases stop?_eq_some_iff.1 h.stops with ⟨-, hh⟩ | ⟨-, hb, -⟩ | ⟨-, -, -, hh⟩
  · cases hh
  · rw [UInt64.le_iff_toNat_le, h.toNat_steps le_rfl] at hb
    apply UInt64.toNat_inj.1
    rw [h.toNat_steps le_rfl]
    omega
  · cases hh

theorem run_of_not_exhausted (hb : budget ≤ budget')
    (hne : (e.run .silent budget ()).1.halt ≠ .budgetExceeded) :
    (e.run .silent budget' ()).1 = (e.run .silent budget ()).1 := by
  obtain ⟨n, halt, h⟩ := exists_stopsAfter budget e
  rw [run_fst .silent () h] at hne ⊢
  exact run_fst .silent () (h.mono hb hne)

/-- A run that uses up its budget has taken just that many steps, and a larger budget no fewer. -/
theorem run_of_exhausted (he : e.steps ≤ budget) (hb : budget ≤ budget')
    (hex : (e.run .silent budget ()).1.halt = .budgetExceeded) :
    (e.run .silent budget ()).1.steps = budget ∧ budget ≤ (e.run .silent budget' ()).1.steps := by
  obtain ⟨n, halt, h⟩ := exists_stopsAfter budget e
  obtain ⟨n', halt', h'⟩ := exists_stopsAfter budget' e
  rw [run_fst .silent () h] at hex ⊢
  rw [run_fst .silent () h']
  cases hex
  have hs := h.steps_eq_budget he
  refine ⟨hs, ?_⟩
  have hle := h.le_of_le h' hb
  have hn := h.toNat_steps le_rfl
  have hn' := h'.toNat_steps le_rfl
  rw [← hs]
  simp only [outcome, UInt64.le_iff_toNat_le]
  omega

/-! ## How they agree -/

/-- What holds between an execution `e` of `m` on `t`, however it was reached, and runs from the
start with budgets `b` and `b'`. -/
structure Agree (m : Machine) (t : Tape) (e : Execution) (b b' : StepCount) : Prop where
  resumed : e.steps ≤ b → ∀ (σ : Type) (observer : Observer σ) (memory : σ),
    (e.run observer b memory).1 = m.run t b
  overrun : b < e.steps → ∀ (σ : Type) (observer : Observer σ) (memory : σ),
    (e.run observer b memory).1 =
      ⟨e.tape, e.steps, e.state, e.head, if e.isHalted then .halted else .budgetExceeded⟩
  settled : ∀ (σ : Type) (observer : Observer σ) (memory : σ) (halt : Halt),
    (e.step observer memory).1 = .stopped halt →
    ∀ k e', Stepped (e.step observer memory).2.1 k e' →
      e' = e ∧ ∀ (τ : Type) (observer' : Observer τ) (memory' : τ),
        (e'.step observer' memory').1 = .stopped halt ∧ (e'.step observer' memory').2.1 = e'
  enlarged : (m.run t b).halt ≠ .budgetExceeded → m.run t b' = m.run t b
  exhausted : (m.run t b).halt = .budgetExceeded → (m.run t b).steps = b ∧ b ≤ (m.run t b').steps

/-- Steps and runs agree, whoever watches which of them. -/
theorem agree_of_stepped (m : Machine) (t : Tape) (k : Nat) (e : Execution) (b b' : StepCount)
    (he : Stepped (m.execute t) k e) (hk : k < 2 ^ 64) (hb : b ≤ b') : Agree m t e b b' where
  resumed hle σ observer memory := by
    cases stepped_iff.1 he
    exact run_after observer memory (by simpa using hk) hle
  overrun hlt σ observer memory := run_of_lt observer memory hlt
  settled σ observer memory halt hst k e' := stepped_of_stopped observer memory hst
  enlarged hne := run_of_not_exhausted hb hne
  exhausted hex := run_of_exhausted UInt64.zero_le hb hex

theorem agree_of_stepped_twoOnes :
    Stepped (Machine.twoOnes.execute (.empty '_')) 2
        (((Machine.twoOnes.execute (.empty '_')).step .silent ()).2.1.step .recorder #[]).2.1 ∧
      2 < 2 ^ 64 ∧ (3 : StepCount) ≤ 5 ∧
      Agree .twoOnes (.empty '_')
        (((Machine.twoOnes.execute (.empty '_')).step .silent ()).2.1.step .recorder #[]).2.1 3 5 :=
  have h := .step .recorder #[] (.step .silent () .start)
  ⟨h, by decide, by decide, agree_of_stepped _ _ 2 _ 3 5 h (by decide) (by decide)⟩

end TapeMachine.Execution
