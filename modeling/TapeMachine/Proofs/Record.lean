import Mathlib
import TapeMachine.Proofs.Trajectory
/-!
# What a recorder has after a run

A recorder is told of each step before it is taken. `run_recorded`: its events tell the whole story
of the run, each one what the run read, wrote and did next, and who watches does not change what
the run comes to. The rules are those of `IsRecord`; the tape they speak of is the one that the
events before it have written (`replay`).
-/

namespace TapeMachine

/-- The tape after the writes that events announce. -/
def replay (t : Tape) (events : List TraceEvent) : Tape :=
  events.foldl (fun t event => t.write event.head event.write) t

theorem replay_append (t : Tape) (xs ys : List TraceEvent) :
    replay t (xs ++ ys) = replay (replay t xs) ys :=
  List.foldl_append

namespace Execution

variable {e : Execution} {halt : Halt} {budget : StepCount} {n : Nat}

/-- The events that a new recorder has after a run. -/
def record (e : Execution) (budget : StepCount) : List TraceEvent :=
  (e.run .recorder budget #[]).2.toList

/-- The events tell how a run from `e` comes to `o`. -/
structure IsRecord (e : Execution) (o : Outcome) (events : List TraceEvent) : Prop where
  steps_le : e.steps ≤ o.steps
  length : events.length = o.steps.toNat - e.steps.toNat
  step : ∀ i (_ : i < events.length), events[i].step.toNat = e.steps.toNat + i
  first : ∀ _ : 0 < events.length, events[0].state = e.state ∧ events[0].head = e.head
  next : ∀ i (_ : i + 1 < events.length), events[i + 1].state = events[i].next ∧
    events[i + 1].head = events[i].head + events[i].direction.offset
  /-- What is read is what the events before have left there. -/
  read : ∀ i (_ : i < events.length),
    events[i].read = (replay e.tape (events.take i)).read events[i].head
  transition : ∀ event ∈ events, e.machine.transition? event.state event.read =
    some ⟨event.next, event.write, event.direction⟩
  not_halt : ∀ event ∈ events, event.state ≠ e.machine.halt
  last : ∀ h : events ≠ [], o.state = (events.getLast h).next ∧
    o.head = (events.getLast h).head + (events.getLast h).direction.offset
  idle : events = [] → o.state = e.state ∧ o.head = e.head
  tape : replay e.tape events = o.tape

/-! ## The recorder -/

theorem foldl_tell_recorder (memory : Array TraceEvent) (events : List TraceEvent) :
    events.foldl Observer.recorder.tell memory = memory ++ events := by
  induction events generalizing memory with
  | nil => simp
  | cons event events ih => rw [List.foldl_cons, ih]; simp [Observer.tell, Observer.recorder]

theorem announceStop_recorder (memory : Array TraceEvent) :
    e.announceStop .recorder halt memory = memory := by
  cases halt <;> rfl

theorem record_eq (h : e.StopsAfter budget n halt) : e.record budget = e.events n := by
  rw [record, run_eq .recorder #[] h, announceStop_recorder, foldl_tell_recorder]
  simp [Observer.recorder]

/-! ## Events along a trajectory -/

/-- What is announced is what the table says, outside the halt state. -/
theorem transition?_event {t : Transition} (h : e.upcoming = .ok t) :
    (e.event t).state ≠ e.machine.halt ∧ e.machine.transition? (e.event t).state (e.event t).read =
      some ⟨(e.event t).next, (e.event t).write, (e.event t).direction⟩ :=
  upcoming_eq_ok_iff.1 h

theorem StopsAfter.event_at (h : e.StopsAfter budget n halt) {i : Nat}
    (hi : i < (e.events n).length) :
    ∃ t, (e.after i).upcoming = .ok t ∧ e.after (i + 1) = (e.after i).apply t ∧
      (e.events n)[i] = (e.after i).event t := by
  rw [h.length_events le_rfl] at hi
  obtain ⟨-, t, ht, hn⟩ := h.moved hi
  refine ⟨t, ht, hn, Option.some.inj ?_⟩
  rw [← List.getElem?_eq_getElem, h.getElem?_events hi, event?_of_ok ht]

theorem StopsAfter.replay_events (h : e.StopsAfter budget n halt) {i : Nat} (hi : i ≤ n) :
    replay e.tape (e.events i) = (e.after i).tape := by
  induction i with
  | zero => rfl
  | succ i ih =>
    -- what the event announces is the write that the step then makes
    obtain ⟨t, -, hn, he⟩ := h.events_succ_of_lt hi
    rw [he, hn, replay_append, ih (by omega)]
    rfl

/-- Every event is that of one of the steps. -/
theorem StopsAfter.exists_of_mem_events (h : e.StopsAfter budget n halt) {event : TraceEvent}
    (hev : event ∈ e.events n) :
    ∃ i < n, ∃ t, (e.after i).upcoming = .ok t ∧ event = (e.after i).event t := by
  obtain ⟨i, hi, rfl⟩ := List.mem_iff_getElem.1 hev
  obtain ⟨t, ht, -, he⟩ := h.event_at hi
  exact ⟨i, h.length_events le_rfl ▸ hi, t, ht, he⟩

theorem StopsAfter.isRecord (h : e.StopsAfter budget n halt) :
    IsRecord e ((e.after n).outcome halt) (e.events n) where
  steps_le := by
    rw [UInt64.le_iff_toNat_le, outcome, h.toNat_steps le_rfl]
    omega
  length := by
    rw [h.length_events le_rfl, outcome, h.toNat_steps le_rfl]
    omega
  step i hi := by
    obtain ⟨t, -, -, he⟩ := h.event_at hi
    have hin : i < n := h.length_events le_rfl ▸ hi
    rw [he, event, h.toNat_steps hin.le]
  first h0 := by
    obtain ⟨t, -, -, he⟩ := h.event_at h0
    rw [he]
    exact ⟨rfl, rfl⟩
  next i hi := by
    obtain ⟨t, -, hn, he⟩ := h.event_at (Nat.lt_of_succ_lt hi)
    obtain ⟨t', -, -, he'⟩ := h.event_at hi
    rw [he, he', event, hn]
    exact ⟨rfl, rfl⟩
  read i hi := by
    obtain ⟨t, -, -, he⟩ := h.event_at hi
    have hin : i < n := h.length_events le_rfl ▸ hi
    rw [h.take_events hin.le, h.replay_events hin.le, he]
    rfl
  transition event hev := by
    obtain ⟨i, -, t, ht, rfl⟩ := h.exists_of_mem_events hev
    exact machine_after e i ▸ (transition?_event ht).2
  not_halt event hev := by
    obtain ⟨i, -, t, ht, rfl⟩ := h.exists_of_mem_events hev
    exact machine_after e i ▸ (transition?_event ht).1
  last hne := by
    have hlen := h.length_events le_rfl
    have hpos : 0 < n := hlen ▸ List.length_pos_iff.2 hne
    obtain ⟨t, -, hn, he⟩ := h.event_at (i := n - 1) (by omega)
    rw [Nat.sub_add_cancel hpos] at hn
    simp only [List.getLast_eq_getElem, hlen, he, outcome, hn]
    exact ⟨rfl, rfl⟩
  idle hnil := by
    have hzero : n = 0 := by rw [← h.length_events le_rfl, hnil, List.length_nil]
    subst hzero
    exact ⟨rfl, rfl⟩
  tape := h.replay_events le_rfl

/-- No move on the way overflows. -/
theorem StopsAfter.toInt_head_event (h : e.StopsAfter budget n halt) (hb : budget.toNat < 2 ^ 63)
    (he : e.steps.toNat < 2 ^ 63 → e.head.toInt.natAbs ≤ e.steps.toNat) :
    ∀ event ∈ e.events n,
      (event.head + event.direction.offset).toInt = event.head.toInt + event.direction.shift := by
  intro event hev
  obtain ⟨i, hi, t, -, rfl⟩ := h.exists_of_mem_events hev
  have h0 := UInt64.lt_iff_toNat_lt.1 (h.moved (Nat.zero_lt_of_lt hi)).1
  have hs := UInt64.lt_iff_toNat_lt.1 (h.moved hi).1
  -- the counter is below the budget, and the head no further from 0 than the counter says
  have hle := h.natAbs_head_le hb (he (by simpa using h0.trans hb)) hi.le
  exact toInt_head_apply t (by omega)

/-- The events of a recorder are the record of the run, whoever watches the run comes to the same,
and after fewer steps than would exhaust the counter the head has not overflowed either. -/
theorem run_recorded (e : Execution) (budget : StepCount) :
    IsRecord e (e.run .silent budget ()).1 (e.record budget) ∧
    (∀ (σ : Type) (observer : Observer σ) (memory : σ),
      (e.run observer budget memory).1 = (e.run .silent budget ()).1) ∧
    ∀ (m : Machine) (t : Tape) (k : Nat), Stepped (m.execute t) k e → k < 2 ^ 64 →
      budget.toNat < 2 ^ 63 → ∀ event ∈ e.record budget,
        (event.head + event.direction.offset).toInt = event.head.toInt + event.direction.shift := by
  obtain ⟨n, halt, h⟩ := exists_stopsAfter budget e
  rw [run_fst .silent () h, record_eq h]
  refine ⟨h.isRecord, fun σ observer memory => run_fst observer memory h, ?_⟩
  intro m t k hs hk hb
  cases stepped_iff.1 hs
  exact h.toInt_head_event hb (natAbs_head_after_le m t hk)

theorem run_recorded_twoOnes :
    Stepped (Machine.twoOnes.execute (.empty '_')) 1
        ((Machine.twoOnes.execute (.empty '_')).step .silent ()).2.1 ∧
      1 < 2 ^ 64 ∧ (3 : StepCount).toNat < 2 ^ 63 ∧
      ∀ event ∈ record ((Machine.twoOnes.execute (.empty '_')).step .silent ()).2.1 3,
        (event.head + event.direction.offset).toInt = event.head.toInt + event.direction.shift :=
  have h := .step .silent () .start
  ⟨h, by decide, by decide, (run_recorded _ 3).2.2 _ _ 1 h (by decide) (by decide)⟩

end Execution

end TapeMachine
