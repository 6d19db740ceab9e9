import Mathlib
import TapeMachine.Proofs.Record
/-!
# Two executions in lockstep

Two executions of different machines on different tapes can go side by side: whenever one of them
takes a step, so does the other, and what the second announces is what the first announces, told in
other words. `Lockstep` is what has to be shown of one step. `Lockstep.stopsAfter` is what follows for
runs: they take the same number of steps, stop for the same reason and end as they went.
-/

namespace TapeMachine

/-- The reason with its state and its symbol renamed. -/
def Halt.map (f : State → State) (g : Symbol → Symbol) : Halt → Halt
  | halted => halted
  | undefinedTransition state symbol => undefinedTransition (f state) (g symbol)
  | budgetExceeded => budgetExceeded

@[simp] theorem Halt.map_id (halt : Halt) : halt.map id id = halt := by
  cases halt <;> rfl

namespace Execution

variable {e e' : Execution} {t : Transition} {halt : Halt} {budget : StepCount} {n : Nat}
  {f : State → State} {g : Symbol → Symbol} {tell : TraceEvent → TraceEvent}
  {R : Execution → Execution → Prop}

/-- The relation is kept by every step that the budget allows. The second execution calls states and
symbols by the names that `f` and `g` give them, and announces what `tell` makes of the
announcements of the first. -/
structure Lockstep (budget : StepCount) (f : State → State) (g : Symbol → Symbol)
    (tell : TraceEvent → TraceEvent) (R : Execution → Execution → Prop) : Prop where
  steps : ∀ {e e'}, R e e' → e'.steps = e.steps
  halted : ∀ {e e'}, R e e' → (e'.state = e'.machine.halt ↔ e.state = e.machine.halt)
  moves : ∀ {e e' t}, R e e' → e.steps < budget → e.upcoming = .ok t →
    ∃ t', e'.transition? = some t' ∧ e'.event t' = tell (e.event t) ∧ R (e.apply t) (e'.apply t')
  stuck : ∀ {e e'}, R e e' → e.steps < budget → e.transition? = none →
    e'.transition? = none ∧ e'.state = f e.state ∧ e'.symbol = g e.symbol

/-- The special case where the table of the second execution has the transitions of the first, told in
other words by `tr`. -/
structure Translation (f : State → State) (g : Symbol → Symbol) (tr : Transition → Transition)
    (tell : TraceEvent → TraceEvent) (R : Execution → Execution → Prop) : Prop where
  steps : ∀ {e e'}, R e e' → e'.steps = e.steps
  state : ∀ {e e'}, R e e' → e'.state = f e.state
  symbol : ∀ {e e'}, R e e' → e'.symbol = g e.symbol
  halted : ∀ {e e'}, R e e' → (e'.state = e'.machine.halt ↔ e.state = e.machine.halt)
  transition? : ∀ {e e'}, R e e' → e'.transition? = e.transition?.map tr
  event : ∀ {e e'} t, R e e' → e'.event (tr t) = tell (e.event t)
  apply : ∀ {e e'} t, R e e' → R (e.apply t) (e'.apply (tr t))

theorem Translation.lockstep {tr : Transition → Transition} (l : Translation f g tr tell R)
    (budget : StepCount) : Lockstep budget f g tell R where
  steps := l.steps
  halted := l.halted
  moves {e e' t} h _ hu := by
    refine ⟨tr t, ?_, l.event t h, l.apply t h⟩
    rw [l.transition? h, (upcoming_eq_ok_iff.1 hu).2]
    rfl
  stuck h _ ht := by
    refine ⟨?_, l.state h, l.symbol h⟩
    rw [l.transition? h, ht]
    rfl

namespace Lockstep

variable (l : Lockstep budget f g tell R)
include l

theorem moves_upcoming (h : R e e') (hs : e.steps < budget) (hu : e.upcoming = .ok t) :
    ∃ t', e'.upcoming = .ok t' ∧ e'.event t' = tell (e.event t) ∧ R (e.apply t) (e'.apply t') := by
  obtain ⟨t', ht', hevent, hR⟩ := l.moves h hs hu
  have hne : e'.state ≠ e'.machine.halt := mt (l.halted h).1 (upcoming_eq_ok_iff.1 hu).1
  exact ⟨t', upcoming_eq_ok_iff.2 ⟨hne, ht'⟩, hevent, hR⟩

theorem stop?_of_some (h : R e e') (hs : e.stop? budget = some halt) :
    e'.stop? budget = some (halt.map f g) := by
  have hhalted := l.halted h
  have hsteps := l.steps h
  rw [stop?_eq_some_iff, hsteps]
  rcases stop?_eq_some_iff.1 hs with ⟨hh, rfl⟩ | ⟨hh, hb, rfl⟩ | ⟨hh, hb, ht, rfl⟩
  · exact .inl ⟨hhalted.2 hh, rfl⟩
  · exact .inr (.inl ⟨mt hhalted.1 hh, hb, rfl⟩)
  · obtain ⟨ht', hstate, hsymbol⟩ := l.stuck h hb ht
    refine .inr (.inr ⟨mt hhalted.1 hh, hb, ht', ?_⟩)
    rw [hstate, hsymbol]
    rfl

/-- The runs stop together, and have announced the same on the way. -/
theorem stopsAfter (h : R e e') (hs : e.StopsAfter budget n halt) :
    R (e.after n) (e'.after n) ∧ e'.StopsAfter budget n (halt.map f g) ∧
      e'.events n = (e.events n).map tell := by
  induction n generalizing e e' with
  | zero =>
    exact ⟨h, stopsAfter_zero_iff.2 (l.stop?_of_some h (stopsAfter_zero_iff.1 hs)), rfl⟩
  | succ n ih =>
    obtain ⟨hgo, hrest⟩ := stopsAfter_succ_iff.1 hs
    obtain ⟨hb, t, hu⟩ := stop?_eq_none_iff.1 hgo
    obtain ⟨t', hu', hevent, hR⟩ := l.moves_upcoming h hb hu
    have hgo' : e'.stop? budget = none := stop?_eq_none_iff.2 ⟨l.steps h ▸ hb, t', hu'⟩
    rw [← next_of_ok hu, ← next_of_ok hu'] at hR
    obtain ⟨hR, hrest', hevents⟩ := ih hR hrest
    refine ⟨?_, stopsAfter_succ_iff.2 ⟨hgo', hrest'⟩, ?_⟩
    · rwa [after_succ', after_succ']
    · rw [events_succ', events_succ', event?_of_ok hu, event?_of_ok hu', hevents, hevent]
      rfl

theorem record (h : R e e') : e'.record budget = (e.record budget).map tell := by
  obtain ⟨n, halt, hs⟩ := exists_stopsAfter budget e
  obtain ⟨-, hs', hevents⟩ := l.stopsAfter h hs
  rw [record_eq hs, record_eq hs', hevents]

end Lockstep

end Execution

end TapeMachine
