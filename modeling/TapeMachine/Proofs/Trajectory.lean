import Mathlib
import TapeMachine.Execution
/-!
# Trajectories

What a run goes through, without its loop: `e.after n` is the execution that `n` steps lead to and
`e.events n` what is announced on the way. A run stops at the first execution on this path that its
budget, the halt state or the table stops (`stop?`), and there is always one:
`exists_stopsAfter`, `run_eq`. Later proofs are about the path and do not look at the loop again.
-/

namespace TapeMachine

variable {σ : Type}

/-- The move as an integer. -/
def Direction.shift : Direction → Int
  | left => -1
  | right => 1
  | stay => 0

@[simp] theorem Direction.toInt_offset (d : Direction) : d.offset.toInt = d.shift := by
  cases d <;> rfl

theorem Direction.natAbs_shift_le (d : Direction) : d.shift.natAbs ≤ 1 := by
  cases d <;> decide

/-- What an observer remembers after it has been told of a step. -/
def Observer.tell (observer : Observer σ) (memory : σ) (event : TraceEvent) : σ :=
  observer.onStep event (observer.onEntry (.applyingTransition event) memory)

namespace Execution

variable {e e' : Execution} {t : Transition} {halt : Halt} {budget budget' : StepCount} {n : Nat}

/-! ## One step -/

theorem upcoming_eq_ok_iff :
    e.upcoming = .ok t ↔ e.state ≠ e.machine.halt ∧ e.transition? = some t := by
  unfold upcoming isHalted
  by_cases h : e.state = e.machine.halt
  · simp [h]
  · cases ht : e.transition? <;> simp [h]

theorem upcoming_eq_error_iff :
    e.upcoming = .error halt ↔ (e.state = e.machine.halt ∧ halt = .halted) ∨
      (e.state ≠ e.machine.halt ∧ e.transition? = none ∧
        halt = .undefinedTransition e.state e.symbol) := by
  unfold upcoming isHalted
  by_cases h : e.state = e.machine.halt
  · simp [h, eq_comm]
  · cases ht : e.transition? <;> simp [h, eq_comm]

/-- The execution after one step, or the same one if there is no step to take. -/
def next (e : Execution) : Execution :=
  match e.upcoming with
  | .ok t => e.apply t
  | .error _ => e

theorem next_of_ok (h : e.upcoming = .ok t) : e.next = e.apply t := by
  rw [next, h]

theorem next_of_error (h : e.upcoming = .error halt) : e.next = e := by
  rw [next, h]

@[simp] theorem machine_next (e : Execution) : e.next.machine = e.machine := by
  unfold next
  split <;> rfl

theorem step_fst (observer : Observer σ) (memory : σ) :
    (e.step observer memory).1 = match e.upcoming with
      | .ok _ => .moved
      | .error halt => .stopped halt := by
  unfold step
  split <;> simp_all

theorem step_snd (observer : Observer σ) (memory : σ) : (e.step observer memory).2.1 = e.next := by
  unfold step next
  split <;> simp_all

theorem step_fst_eq_stopped_iff (observer : Observer σ) (memory : σ) :
    (e.step observer memory).1 = .stopped halt ↔ e.upcoming = .error halt := by
  rw [step_fst]
  cases e.upcoming <;> simp

/-! ## Many steps -/

/-- The execution after `n` steps, or after as many as there are. -/
def after (e : Execution) (n : Nat) : Execution := next^[n] e

@[simp] theorem after_zero (e : Execution) : e.after 0 = e := rfl

theorem after_succ (e : Execution) (n : Nat) : e.after (n + 1) = (e.after n).next :=
  Function.iterate_succ_apply' next n e

theorem after_succ' (e : Execution) (n : Nat) : e.after (n + 1) = e.next.after n :=
  Function.iterate_succ_apply next n e

theorem after_add (e : Execution) (m n : Nat) : e.after (m + n) = (e.after m).after n := by
  rw [Nat.add_comm]
  exact Function.iterate_add_apply next n m e

@[simp] theorem machine_after (e : Execution) (n : Nat) : (e.after n).machine = e.machine := by
  induction n with
  | zero => rfl
  | succ n ih => rw [after_succ, machine_next, ih]

theorem after_of_error (h : e.upcoming = .error halt) (n : Nat) : e.after n = e :=
  Function.iterate_fixed (next_of_error h) n

/-- What a step keeps holds after any number of them. -/
theorem inv_after (Inv : Execution → Prop) (h : Inv e)
    (hstep : ∀ e t, Inv e → e.upcoming = .ok t → Inv (e.apply t)) (n : Nat) : Inv (e.after n) := by
  induction n with
  | zero => exact h
  | succ n ih =>
    rw [after_succ]
    cases hu : (e.after n).upcoming with
    | ok t =>
      rw [next_of_ok hu]
      exact hstep _ t ih hu
    | error halt => rwa [next_of_error hu]

theorem takeSteps_snd (n : Nat) (e : Execution) : (takeSteps n e).2 = e.after n := by
  induction n generalizing e with
  | zero => rfl
  | succ n ih =>
    rw [takeSteps, after_succ']
    cases h : e.upcoming with
    | ok t => rw [next_of_ok h, ← ih]
    | error halt => rw [next_of_error h, after_of_error h]

/-- Executions that `n` calls of `step` lead to, each of them with an observer of its own. -/
inductive Stepped (e : Execution) : Nat → Execution → Prop
  | start : Stepped e 0 e
  | step {n : Nat} {e' : Execution} {σ : Type} (observer : Observer σ) (memory : σ) :
      Stepped e n e' → Stepped e (n + 1) (e'.step observer memory).2.1

/-- Who watches makes no difference. -/
theorem stepped_iff : Stepped e n e' ↔ e' = e.after n := by
  constructor
  · intro h
    induction h with
    | start => rfl
    | step observer memory _ ih => rw [step_snd, ih, after_succ]
  · rintro rfl
    induction n with
    | zero => exact .start
    | succ n ih =>
      rw [after_succ, ← step_snd .silent ()]
      exact .step _ _ ih

/-! ## Counter and head -/

theorem toNat_steps_apply (t : Transition) (h : e.steps.toNat + 1 < 2 ^ 64) :
    (e.apply t).steps.toNat = e.steps.toNat + 1 := by
  simp only [apply, UInt64.toNat_add, UInt64.reduceToNat]
  omega

theorem toNat_steps_apply_of_lt (t : Transition) (h : e.steps < budget) :
    (e.apply t).steps.toNat = e.steps.toNat + 1 := by
  have := UInt64.lt_iff_toNat_lt.1 h
  have := budget.toNat_lt
  exact toNat_steps_apply t (by omega)

/-- As long as there is a position to go to, the head moves as on the integers. -/
theorem toInt_head_apply_of_mem (t : Transition) (hl : -2 ^ 63 ≤ e.head.toInt + t.direction.shift)
    (hu : e.head.toInt + t.direction.shift < 2 ^ 63) :
    (e.apply t).head.toInt = e.head.toInt + t.direction.shift := by
  simp only [apply, Int64.toInt_add, Direction.toInt_offset]
  exact Int.bmod_eq_of_le (by omega) (by omega)

/-- Away from the ends there always is one. -/
theorem toInt_head_apply (t : Transition) (h : e.head.toInt.natAbs + 1 < 2 ^ 63) :
    (e.apply t).head.toInt = e.head.toInt + t.direction.shift := by
  have := t.direction.natAbs_shift_le
  exact toInt_head_apply_of_mem t (by omega) (by omega)

/-- The counter never goes back and counts each call at most once. -/
theorem toNat_steps_after (h : e.steps.toNat + n < 2 ^ 64) :
    e.steps.toNat ≤ (e.after n).steps.toNat ∧ (e.after n).steps.toNat ≤ e.steps.toNat + n := by
  induction n with
  | zero => exact ⟨le_rfl, le_rfl⟩
  | succ n ih =>
    obtain ⟨hl, hu⟩ := ih (by omega)
    rw [after_succ]
    cases ht : (e.after n).upcoming with
    | ok t =>
      rw [next_of_ok ht, toNat_steps_apply t (by omega)]
      omega
    | error halt =>
      rw [next_of_error ht]
      omega

/-- The head gets no further from position 0 than there are steps. -/
theorem natAbs_head_apply_le (t : Transition) (h : e.head.toInt.natAbs ≤ e.steps.toNat)
    (hs : e.steps.toNat + 1 < 2 ^ 63) :
    (e.apply t).head.toInt.natAbs ≤ (e.apply t).steps.toNat := by
  have := t.direction.natAbs_shift_le
  rw [toInt_head_apply t (by omega), toNat_steps_apply t (by omega)]
  omega

@[simp] theorem toNat_steps_execute (m : Machine) (t : Tape) : (m.execute t).steps.toNat = 0 := rfl

theorem natAbs_head_after_le (m : Machine) (t : Tape) (hn : n < 2 ^ 64)
    (hs : ((m.execute t).after n).steps.toNat < 2 ^ 63) :
    ((m.execute t).after n).head.toInt.natAbs ≤ ((m.execute t).after n).steps.toNat := by
  induction n with
  | zero => exact le_rfl
  | succ n ih =>
    -- the counter does not wrap in fewer than 2 ^ 64 steps, so it was below the bound before, too
    have hle : ((m.execute t).after n).steps.toNat ≤ n := by
      simpa using (toNat_steps_after (e := m.execute t) (n := n) (by simp; omega)).2
    rw [after_succ] at hs ⊢
    cases hu : ((m.execute t).after n).upcoming with
    | ok u =>
      have hst := toNat_steps_apply (e := (m.execute t).after n) u (by omega)
      rw [next_of_ok hu] at hs ⊢
      exact natAbs_head_apply_le u (ih (by omega) (by omega)) (by omega)
    | error halt =>
      rw [next_of_error hu] at hs ⊢
      exact ih (by omega) hs

/-! ## Where a run stops -/

/-- Why a run with this budget stops here, if it does. -/
def stop? (budget : StepCount) (e : Execution) : Option Halt :=
  if e.isHalted then some .halted
  else if budget ≤ e.steps then some .budgetExceeded
  else match e.upcoming with
    | .ok _ => none
    | .error halt => some halt

theorem stop?_eq_none_iff :
    e.stop? budget = none ↔ e.steps < budget ∧ ∃ t, e.upcoming = .ok t := by
  unfold stop?
  by_cases hh : e.isHalted
  · simp [hh, upcoming]
  · by_cases hb : budget ≤ e.steps
    · simp [hh, hb]
    · cases e.upcoming <;> simp [hh, hb, UInt64.not_le.1 hb]

/-- The halt state comes before the budget and the budget before the table. -/
theorem stop?_eq_some_iff :
    e.stop? budget = some halt ↔ (e.state = e.machine.halt ∧ halt = .halted) ∨
      (e.state ≠ e.machine.halt ∧ budget ≤ e.steps ∧ halt = .budgetExceeded) ∨
      (e.state ≠ e.machine.halt ∧ e.steps < budget ∧ e.transition? = none ∧
        halt = .undefinedTransition e.state e.symbol) := by
  unfold stop?
  by_cases hh : e.state = e.machine.halt
  · simp [hh, isHalted, eq_comm]
  · by_cases hb : budget ≤ e.steps
    · simp [hh, hb, UInt64.not_lt.2 hb, isHalted, eq_comm]
    · cases ht : e.transition? <;>
        simp [hh, hb, UInt64.not_le.1 hb, isHalted, upcoming, ht, eq_comm]

theorem upcoming_of_stop? {state : State} {symbol : Symbol}
    (h : e.stop? budget = some (.undefinedTransition state symbol)) :
    e.upcoming = .error (.undefinedTransition state symbol) := by
  rcases stop?_eq_some_iff.1 h with ⟨-, hh⟩ | ⟨-, -, hh⟩ | ⟨hne, -, ht, hh⟩
  · cases hh
  · cases hh
  · exact upcoming_eq_error_iff.2 (.inr ⟨hne, ht, hh⟩)

/-- A run with this budget takes `n` steps and stops for the reason `halt`. -/
structure StopsAfter (budget : StepCount) (e : Execution) (n : Nat) (halt : Halt) : Prop where
  moves : ∀ i < n, (e.after i).stop? budget = none
  stops : (e.after n).stop? budget = some halt

theorem stopsAfter_zero_iff : e.StopsAfter budget 0 halt ↔ e.stop? budget = some halt :=
  ⟨fun h => h.stops, fun h => ⟨by simp, h⟩⟩

theorem stopsAfter_succ_iff :
    e.StopsAfter budget (n + 1) halt ↔ e.stop? budget = none ∧ e.next.StopsAfter budget n halt := by
  constructor
  · rintro ⟨hm, hs⟩
    exact ⟨hm 0 (by omega), fun i hi => after_succ' e i ▸ hm (i + 1) (by omega), after_succ' e n ▸ hs⟩
  · rintro ⟨h0, hm, hs⟩
    refine ⟨fun i hi => ?_, after_succ' e n ▸ hs⟩
    rcases i with _ | i
    · exact h0
    · exact after_succ' e i ▸ hm i (by omega)

/-- Every run stops: it cannot take more steps than its budget has left. -/
theorem exists_stopsAfter (budget : StepCount) (e : Execution) :
    ∃ n halt, e.StopsAfter budget n halt := by
  -- what is left of the budget goes down with each step
  induction hk : budget.toNat - e.steps.toNat using Nat.strong_induction_on generalizing e with
  | _ k ih =>
    cases hs : e.stop? budget with
    | some halt => exact ⟨0, halt, stopsAfter_zero_iff.2 hs⟩
    | none =>
      obtain ⟨hb, t, ht⟩ := stop?_eq_none_iff.1 hs
      have hlt : e.steps.toNat < budget.toNat := UInt64.lt_iff_toNat_lt.1 hb
      have hn : e.next.steps.toNat = e.steps.toNat + 1 := by
        rw [next_of_ok ht, toNat_steps_apply_of_lt t hb]
      obtain ⟨n, halt, h⟩ := ih _ (by omega) e.next rfl
      exact ⟨n + 1, halt, stopsAfter_succ_iff.2 ⟨hs, h⟩⟩

namespace StopsAfter

theorem moved (h : e.StopsAfter budget n halt) {i : Nat} (hi : i < n) :
    (e.after i).steps < budget ∧ ∃ t, (e.after i).upcoming = .ok t ∧
      e.after (i + 1) = (e.after i).apply t := by
  obtain ⟨hb, t, ht⟩ := stop?_eq_none_iff.1 (h.moves i hi)
  exact ⟨hb, t, ht, by rw [after_succ, next_of_ok ht]⟩

/-- The counter counts, without overflow. -/
theorem toNat_steps (h : e.StopsAfter budget n halt) {i : Nat} (hi : i ≤ n) :
    (e.after i).steps.toNat = e.steps.toNat + i := by
  induction i with
  | zero => rfl
  | succ i ih =>
    obtain ⟨hb, t, -, hn⟩ := h.moved hi
    rw [hn, toNat_steps_apply_of_lt t hb, ih (by omega), Nat.add_assoc]

/-- What every step within the budget keeps holds all along the run. -/
theorem inv (h : e.StopsAfter budget n halt) (Inv : Execution → Prop) (he : Inv e)
    (hstep : ∀ e t, Inv e → e.steps < budget → Inv (e.apply t)) {i : Nat} (hi : i ≤ n) :
    Inv (e.after i) := by
  induction i with
  | zero => exact he
  | succ i ih =>
    obtain ⟨hs, t, -, hn⟩ := h.moved hi
    exact hn ▸ hstep _ t (ih (Nat.le_of_succ_le hi)) hs

theorem natAbs_head_le (h : e.StopsAfter budget n halt) (hb : budget.toNat < 2 ^ 63)
    (he : e.head.toInt.natAbs ≤ e.steps.toNat) {i : Nat} (hi : i ≤ n) :
    (e.after i).head.toInt.natAbs ≤ (e.after i).steps.toNat := by
  refine h.inv (fun e => e.head.toInt.natAbs ≤ e.steps.toNat) he (fun e t hle hs => ?_) hi
  have := UInt64.lt_iff_toNat_lt.1 hs
  exact natAbs_head_apply_le t hle (by omega)

/-- A run that starts within its budget stays within it. -/
theorem steps_add_le (h : e.StopsAfter budget n halt) (hb : e.steps ≤ budget) :
    e.steps.toNat + n ≤ budget.toNat := by
  rcases n with _ | n
  · exact UInt64.le_iff_toNat_le.1 hb
  · obtain ⟨hlt, -⟩ := h.moved (Nat.lt_succ_self n)
    have := UInt64.lt_iff_toNat_lt.1 hlt
    rw [h.toNat_steps (Nat.le_succ n)] at this
    omega

end StopsAfter

/-! ## Runs that go on -/

/-- None of the first `n` calls of `step` is stopped. -/
def Moves (e : Execution) (n : Nat) : Prop := ∀ i < n, ∃ t, (e.after i).upcoming = .ok t

/-- A counter that has counted every call has seen none of them stopped. -/
theorem moves_of_toNat_steps (h : (e.after n).steps.toNat = e.steps.toNat + n) : e.Moves n := by
  intro i hi
  cases hu : (e.after i).upcoming with
  | ok t => exact ⟨t, rfl⟩
  | error halt =>
    -- the execution stays where it is, and so does its counter
    have hstay : e.after n = e.after i := by
      rw [← Nat.add_sub_of_le hi.le, after_add, after_of_error hu]
    have hlt := (e.after n).steps.toNat_lt
    have hle := (toNat_steps_after (e := e) (n := i) (by omega)).2
    rw [← hstay] at hle
    omega

theorem Moves.mono (h : e.Moves n) {i : Nat} (hi : i ≤ n) : e.Moves i :=
  fun j hj => h j (hj.trans_le hi)

theorem Moves.add {k : Nat} (h : e.Moves n) (h' : (e.after n).Moves k) : e.Moves (n + k) := by
  intro i hi
  by_cases hn : i < n
  · exact h i hn
  · obtain ⟨j, rfl⟩ := Nat.exists_eq_add_of_le (Nat.le_of_not_lt hn)
    rw [after_add]
    exact h' j (by omega)

theorem Moves.toNat_steps (h : e.Moves n) (ho : e.steps.toNat + n < 2 ^ 64) :
    (e.after n).steps.toNat = e.steps.toNat + n := by
  induction n with
  | zero => rfl
  | succ n ih =>
    have hn := ih (h.mono n.le_succ) (by omega)
    obtain ⟨t, ht⟩ := h n (Nat.lt_succ_self n)
    rw [after_succ, next_of_ok ht, toNat_steps_apply t (by omega), hn, Nat.add_assoc]

/-- A run does not stop while it goes on and there is budget left. -/
theorem Moves.stop?_eq_none (h : e.Moves n) (hb : e.steps.toNat + n ≤ budget.toNat) {i : Nat}
    (hi : i < n) : (e.after i).stop? budget = none := by
  have hlt := budget.toNat_lt
  refine stop?_eq_none_iff.2 ⟨?_, h i hi⟩
  rw [UInt64.lt_iff_toNat_lt, (h.mono hi.le).toNat_steps (by omega)]
  omega

/-- A run that would go on with no budget left uses up its budget. -/
theorem Moves.stopsAfter (h : e.Moves (n + 1)) (hb : budget.toNat = e.steps.toNat + n) :
    e.StopsAfter budget n .budgetExceeded := by
  have hlt := budget.toNat_lt
  have hn := h.mono n.le_succ
  refine ⟨fun i hi => hn.stop?_eq_none hb.ge hi, ?_⟩
  obtain ⟨t, ht⟩ := h n (Nat.lt_succ_self n)
  refine stop?_eq_some_iff.2 (.inr (.inl ⟨(upcoming_eq_ok_iff.1 ht).1, ?_, rfl⟩))
  rw [UInt64.le_iff_toNat_le, hn.toNat_steps (by omega)]
  omega

/-- A run that comes to the halt state within its budget halts. -/
theorem Moves.stopsAfter_of_halt (h : e.Moves n) (hb : e.steps.toNat + n ≤ budget.toNat)
    (hh : (e.after n).state = e.machine.halt) : e.StopsAfter budget n .halted :=
  ⟨fun _ hi => h.stop?_eq_none hb hi,
    stop?_eq_some_iff.2 (.inl ⟨by rw [hh, machine_after], rfl⟩)⟩

/-! ## What is announced -/

/-- What is announced with the next step, if there is one. -/
def event? (e : Execution) : Option TraceEvent :=
  match e.upcoming with
  | .ok t => some (e.event t)
  | .error _ => none

/-- What is announced in the course of `n` steps. -/
def events (e : Execution) (n : Nat) : List TraceEvent :=
  (List.range n).filterMap fun i => (e.after i).event?

theorem event?_of_ok (h : e.upcoming = .ok t) : e.event? = some (e.event t) := by
  rw [event?, h]

@[simp] theorem events_zero (e : Execution) : e.events 0 = [] := rfl

theorem events_add (e : Execution) (m n : Nat) :
    e.events (m + n) = e.events m ++ (e.after m).events n := by
  simp only [events, List.range_add, List.filterMap_append, List.filterMap_map, Function.comp_def,
    after_add]

theorem events_one (e : Execution) : e.events 1 = e.event?.toList := by
  unfold events
  cases h : e.event? <;> simp [h]

theorem events_succ' (e : Execution) (n : Nat) :
    e.events (n + 1) = e.event?.toList ++ e.next.events n := by
  rw [Nat.add_comm, events_add, events_one]
  rfl

theorem StopsAfter.events_succ_of_lt (h : e.StopsAfter budget n halt) {i : Nat} (hi : i < n) :
    ∃ t, (e.after i).upcoming = .ok t ∧ e.after (i + 1) = (e.after i).apply t ∧
      e.events (i + 1) = e.events i ++ [(e.after i).event t] := by
  obtain ⟨-, t, ht, hn⟩ := h.moved hi
  exact ⟨t, ht, hn, by rw [events_add, events_one, event?_of_ok ht]; rfl⟩

theorem StopsAfter.length_events (h : e.StopsAfter budget n halt) {i : Nat} (hi : i ≤ n) :
    (e.events i).length = i := by
  induction i with
  | zero => rfl
  | succ i ih =>
    obtain ⟨t, -, -, he⟩ := h.events_succ_of_lt hi
    rw [he, List.length_append, ih (by omega), List.length_singleton]

/-- Fewer steps, fewer events, and the same ones as far as they go. -/
theorem StopsAfter.take_events (h : e.StopsAfter budget n halt) {i : Nat} (hi : i ≤ n) :
    (e.events n).take i = e.events i := by
  obtain ⟨k, rfl⟩ := Nat.exists_eq_add_of_le hi
  rw [events_add, List.take_left' (h.length_events hi)]

theorem StopsAfter.getElem?_events (h : e.StopsAfter budget n halt) {i : Nat} (hi : i < n) :
    (e.events n)[i]? = (e.after i).event? := by
  obtain ⟨t, ht, -, he⟩ := h.events_succ_of_lt hi
  rw [← List.getElem?_take_of_lt (Nat.lt_succ_self i), h.take_events hi, he, event?_of_ok ht,
    List.getElem?_append_right (h.length_events hi.le).le]
  simp [h.length_events hi.le]

/-! ## The loop -/

/-- The loop ends where the trajectory is stopped, and its observer has been told of every step. -/
theorem advance_eq (observer : Observer σ) (memory : σ) (h : e.StopsAfter budget n halt) :
    e.advance observer budget memory = (halt, e.after n,
      (e.after n).announceStop observer halt ((e.events n).foldl observer.tell memory)) := by
  induction n generalizing e memory with
  | zero =>
    rw [advance]
    rcases stop?_eq_some_iff.1 (stopsAfter_zero_iff.1 h) with
      ⟨hh, rfl⟩ | ⟨hh, hb, rfl⟩ | ⟨hh, hb, ht, rfl⟩
    · simp [isHalted, hh, announceStop]
    · simp [isHalted, hh, hb, announceStop]
    · have : ¬ budget ≤ e.steps := UInt64.not_le.2 hb
      simp [isHalted, hh, this, upcoming, ht, announceStop]
  | succ n ih =>
    obtain ⟨hs, h⟩ := stopsAfter_succ_iff.1 h
    obtain ⟨hb, t, ht⟩ := stop?_eq_none_iff.1 hs
    have hh := (upcoming_eq_ok_iff.1 ht).1
    rw [advance, if_neg (by simpa [isHalted] using hh), dif_neg (UInt64.not_le.2 hb)]
    simp only [ht]
    rw [next_of_ok ht] at h
    rw [ih _ h, after_succ', events_succ', event?_of_ok ht, next_of_ok ht]
    rfl

theorem run_eq (observer : Observer σ) (memory : σ) (h : e.StopsAfter budget n halt) :
    e.run observer budget memory = ((e.after n).outcome halt,
      observer.onEntry (.runFinished (e.after n).state (e.after n).steps halt)
        ((e.after n).announceStop observer halt
          ((e.events n).foldl observer.tell (observer.onEntry (.runStarted e.state budget) memory)))) := by
  rw [run, advance_eq observer _ h]

/-- What a run comes to, whoever watches. -/
theorem run_fst (observer : Observer σ) (memory : σ) (h : e.StopsAfter budget n halt) :
    (e.run observer budget memory).1 = (e.after n).outcome halt := by
  rw [run_eq observer memory h]

end Execution

/-- A machine to try this on. On a tape of blanks it writes two ones and halts with its third step. -/
def Machine.twoOnes : Machine where
  name := none
  states := ["first", "second", "done"]
  alphabet := ['1']
  blank := '_'
  table := Table.empty
    |>.insert ⟨"first", '_'⟩ ⟨"second", '1', .right⟩
    |>.insert ⟨"second", '_'⟩ ⟨"first", '1', .left⟩
    |>.insert ⟨"first", '1'⟩ ⟨"done", '1', .stay⟩
  start := "first"
  halt := "done"

end TapeMachine
