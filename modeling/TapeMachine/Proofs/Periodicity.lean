import Mathlib
import TapeMachine.Proofs.Machine.Build
import TapeMachine.Proofs.Trajectory
/-!
# Repeated configurations

What a machine does next depends on its state, head and tape and on nothing else, the counter least
of all. So a machine that comes back to a configuration goes round for ever: no budget sees it stop,
and from the first visit on what a run comes to depends on the budget up to the period only
(`goesRound_of_repeated`).
-/

namespace TapeMachine.Execution

variable {e e' : Execution} {budget : StepCount} {i j n : Nat}

/-! ## Configurations -/

/-- The executions differ at most in the steps that they have taken. -/
structure SameConfig (e e' : Execution) : Prop where
  machine : e.machine = e'.machine
  state : e.state = e'.state
  head : e.head = e'.head
  tape : e.tape = e'.tape

theorem SameConfig.refl (e : Execution) : e.SameConfig e := ⟨rfl, rfl, rfl, rfl⟩

theorem SameConfig.symm (h : e.SameConfig e') : e'.SameConfig e :=
  ⟨h.machine.symm, h.state.symm, h.head.symm, h.tape.symm⟩

theorem SameConfig.trans {e'' : Execution} (h : e.SameConfig e') (h' : e'.SameConfig e'') :
    e.SameConfig e'' :=
  ⟨h.machine.trans h'.machine, h.state.trans h'.state, h.head.trans h'.head, h.tape.trans h'.tape⟩

theorem SameConfig.upcoming (h : e.SameConfig e') : e.upcoming = e'.upcoming := by
  unfold Execution.upcoming isHalted transition? symbol
  rw [h.machine, h.state, h.head, h.tape]

theorem SameConfig.next (h : e.SameConfig e') : e.next.SameConfig e'.next := by
  have hu := h.upcoming
  cases hn : e.upcoming with
  | error halt =>
    rw [next_of_error hn, next_of_error (hu.symm.trans hn)]
    exact h
  | ok t =>
    rw [next_of_ok hn, next_of_ok (hu.symm.trans hn)]
    obtain ⟨hm, -, hh, ht⟩ := h
    refine ⟨hm, rfl, ?_, ?_⟩
    · simp only [apply, hh]
    · simp only [apply, hh, ht]

theorem SameConfig.after (h : e.SameConfig e') (n : Nat) : (e.after n).SameConfig (e'.after n) := by
  induction n with
  | zero => exact h
  | succ n ih =>
    rw [after_succ, after_succ]
    exact ih.next

/-! ## Repetitions -/

/-- After `i` steps the execution is in a configuration to which it comes back with its `j`th. -/
structure Repeats (e : Execution) (i j : Nat) : Prop where
  lt : i < j
  moves : e.Moves j
  same : (e.after i).SameConfig (e.after j)

namespace Repeats

theorem same_add (h : e.Repeats i j) (k : Nat) :
    (e.after (i + k)).SameConfig (e.after (j + k)) := by
  rw [after_add, after_add]
  exact h.same.after k

/-- Beyond the repetition each configuration has been there before, and was not stopped then. -/
theorem moves_all (h : e.Repeats i j) (n : Nat) : e.Moves n := by
  intro k _
  induction k using Nat.strong_induction_on with
  | _ k ih =>
    by_cases hk : k < j
    · exact h.moves k hk
    · have hlt := h.lt
      obtain ⟨k, rfl⟩ := Nat.exists_eq_add_of_le (Nat.le_of_not_lt hk)
      obtain ⟨t, ht⟩ := ih (i + k) (by omega) (by omega)
      exact ⟨t, (h.same_add k).upcoming ▸ ht⟩

theorem same_mod (h : e.Repeats i j) (k : Nat) :
    (e.after (i + k % (j - i))).SameConfig (e.after (i + k)) := by
  induction k using Nat.strong_induction_on with
  | _ k ih =>
    have hlt := h.lt
    by_cases hk : k < j - i
    · rw [Nat.mod_eq_of_lt hk]
      exact .refl _
    · -- one round earlier the configuration was the same
      obtain ⟨k, rfl⟩ := Nat.exists_eq_add_of_le (Nat.le_of_not_lt hk)
      have hround := h.same_add k
      rw [show j + k = i + (j - i + k) by omega] at hround
      rw [Nat.add_mod_left]
      exact (ih k (by omega)).trans hround

end Repeats

/-! ## Budgets -/

/-- What is left of a budget when all full rounds after the first `i` steps are taken off. -/
def reduced (i j : Nat) (budget : StepCount) : StepCount :=
  .ofNat (i + (budget.toNat - i) % (j - i))

theorem toNat_reduced (hi : i ≤ budget.toNat) :
    (reduced i j budget).toNat = i + (budget.toNat - i) % (j - i) := by
  have hlt := budget.toNat_lt
  have hmod := Nat.mod_le (budget.toNat - i) (j - i)
  rw [reduced, UInt64.toNat_ofNat_of_lt']
  change i + (budget.toNat - i) % (j - i) < 2 ^ 64
  omega

/-- The run uses up its budget, and from the first visit on it comes to what it comes to without the
full rounds. -/
structure GoesRound (m : Machine) (t : Tape) (i j : Nat) (budget : StepCount) : Prop where
  halt : (m.run t budget).halt = .budgetExceeded
  steps : (m.run t budget).steps = budget
  state : i ≤ budget.toNat → (m.run t budget).state = (m.run t (reduced i j budget)).state
  head : i ≤ budget.toNat → (m.run t budget).head = (m.run t (reduced i j budget)).head
  tape : i ≤ budget.toNat → (m.run t budget).tape = (m.run t (reduced i j budget)).tape

namespace Repeats

variable {m : Machine} {t : Tape}

/-- Whatever the budget, the run is the path cut off there. -/
theorem run_eq (h : (m.execute t).Repeats i j) (budget : StepCount) :
    m.run t budget = ((m.execute t).after budget.toNat).outcome .budgetExceeded :=
  run_fst .silent () ((h.moves_all _).stopsAfter (by simp))

theorem goesRound (h : (m.execute t).Repeats i j) (budget : StepCount) :
    GoesRound m t i j budget := by
  have hsame : i ≤ budget.toNat → ((m.execute t).after budget.toNat).SameConfig
      ((m.execute t).after (reduced i j budget).toNat) := by
    intro hi
    have hmod := h.same_mod (budget.toNat - i)
    rw [Nat.add_sub_of_le hi, ← toNat_reduced hi] at hmod
    exact hmod.symm
  constructor
  · rw [h.run_eq]
    rfl
  · have hb := (h.moves_all budget.toNat).toNat_steps (by simpa using budget.toNat_lt)
    rw [h.run_eq, outcome, ← UInt64.toNat_inj, hb]
    simp
  · intro hi
    rw [h.run_eq, h.run_eq]
    exact (hsame hi).state
  · intro hi
    rw [h.run_eq, h.run_eq]
    exact (hsame hi).head
  · intro hi
    rw [h.run_eq, h.run_eq]
    exact (hsame hi).tape

end Repeats

/-- A machine that is found in the same state, with the same head and the same tape after `i` and
after `j` steps goes round, whatever its budget. -/
theorem goesRound_of_repeated (m : Machine) (t : Tape) (i j : Nat) (e e' : Execution)
    (he : Stepped (m.execute t) i e) (he' : Stepped (m.execute t) j e') (hij : i < j)
    (hsteps : e'.steps.toNat = j) (hstate : e.state = e'.state) (hhead : e.head = e'.head)
    (htape : e.tape = e'.tape) (budget : StepCount) : GoesRound m t i j budget := by
  cases stepped_iff.1 he
  cases stepped_iff.1 he'
  have hmoves : (m.execute t).Moves j := moves_of_toNat_steps (by simpa using hsteps)
  have hsame : ((m.execute t).after i).SameConfig ((m.execute t).after j) :=
    ⟨by simp, hstate, hhead, htape⟩
  exact Repeats.goesRound ⟨hij, hmoves, hsame⟩ budget

/-- A head that goes to and fro over two cells. -/
def toAndFro : Execution := Machine.backAndForth.execute (.ofString "0" '_')

/-- It is met on the blank with the first step and again with the third. -/
theorem goesRound_of_repeated_toAndFro :
    Stepped toAndFro 1 (toAndFro.after 1) ∧ Stepped toAndFro 3 (toAndFro.after 3) ∧ 1 < 3 ∧
      (toAndFro.after 3).steps.toNat = 3 ∧ (toAndFro.after 1).state = (toAndFro.after 3).state ∧
      (toAndFro.after 1).head = (toAndFro.after 3).head ∧
      (toAndFro.after 1).tape = (toAndFro.after 3).tape ∧
      GoesRound .backAndForth (.ofString "0" '_') 1 3 1000000 :=
  have h₁ : Stepped toAndFro 1 (toAndFro.after 1) := stepped_iff.2 rfl
  have h₃ : Stepped toAndFro 3 (toAndFro.after 3) := stepped_iff.2 rfl
  have hsteps : (toAndFro.after 3).steps.toNat = 3 := rfl
  have hstate : (toAndFro.after 1).state = (toAndFro.after 3).state := rfl
  have hhead : (toAndFro.after 1).head = (toAndFro.after 3).head := rfl
  have htape : (toAndFro.after 1).tape = (toAndFro.after 3).tape := rfl
  ⟨h₁, h₃, by decide, hsteps, hstate, hhead, htape,
    goesRound_of_repeated _ _ 1 3 _ _ h₁ h₃ (by decide) hsteps hstate hhead htape 1000000⟩

/-- After the first step two thousand are as good as two. -/
example : reduced 1 3 2000 = 2 := by decide

end TapeMachine.Execution
