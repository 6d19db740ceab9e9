import Mathlib
import TapeMachine.Proofs.Trajectory
/-!
# The textbook machine

The machine of the textbooks has a total function on the integers for a tape and a head that no
word size bounds. `run_refines`: a run of fewer than `2 ^ 63` steps comes to what the textbook
machine comes to, stops at the first of its configurations that has a reason to, and neither the
head nor the counter overflows on the way.
-/

namespace TapeMachine

/-- What a tape holds, as a function on all integers: blank where there are no positions. -/
def Tape.contents (t : Tape) (p : Int) : Symbol :=
  if -2 ^ 63 ≤ p ∧ p < 2 ^ 63 then t.read (Int64.ofInt p) else t.blank

theorem Tape.contents_toInt (t : Tape) (p : Position) : t.contents p.toInt = t.read p := by
  rw [contents, if_pos ⟨p.le_toInt, p.toInt_lt⟩, Int64.ofInt_toInt]

namespace Textbook

/-- State, head and tape of the textbook machine. -/
structure Config where
  state : State
  head : Int
  cells : Int → Symbol

namespace Config

/-- The symbol under the head. -/
def symbol (c : Config) : Symbol := c.cells c.head

/-- Writes, moves and changes the state. -/
def apply (c : Config) (t : Transition) : Config :=
  ⟨t.next, c.head + t.direction.shift, Function.update c.cells c.head t.write⟩

/-- The configuration that follows. None does in the halt state or without a transition. -/
def next? (m : Machine) (c : Config) : Option Config :=
  if c.state = m.halt then none else (m.transition? c.state c.symbol).map c.apply

/-- A reason to stop at the `k`th configuration. -/
def Stops (m : Machine) (budget k : Nat) (c : Config) : Prop :=
  c.state = m.halt ∨ k = budget ∨ m.transition? c.state c.symbol = none

/-- Of several reasons to stop the one that is told. -/
def reason (m : Machine) (budget k : Nat) (c : Config) : Halt :=
  if c.state = m.halt then .halted
  else if k = budget then .budgetExceeded
  else .undefinedTransition c.state c.symbol

end Config

/-- The `i`th configuration of the textbook machine, if it gets that far. -/
def config? (m : Machine) (t : Tape) : Nat → Option Config
  | 0 => some ⟨m.start, 0, t.contents⟩
  | i + 1 => (config? m t i).bind (Config.next? m)

/-- The execution is at the `k`th configuration `c`, and its words have not wrapped. -/
structure At (e : Execution) (k : Nat) (c : Config) : Prop where
  state : e.state = c.state
  head : e.head.toInt = c.head
  cells : ∀ p : Position, e.tape.read p = c.cells p.toInt
  steps : e.steps.toNat = k

/-- The outcome is what the textbook machine comes to within a budget. -/
structure Refines (m : Machine) (t : Tape) (budget : Nat) (o : Outcome) : Prop where
  /-- It stops where there is a reason to for the first time. -/
  least : IsLeast {k | ∃ c, config? m t k = some c ∧ c.Stops m budget k} o.steps.toNat
  last : ∃ c, config? m t o.steps.toNat = some c ∧ o.state = c.state ∧ o.head.toInt = c.head ∧
    (∀ p : Position, o.tape.read p = c.cells p.toInt) ∧ o.halt = c.reason m budget o.steps.toNat
  /-- Until then the two machines go side by side. -/
  path : ∀ i ≤ o.steps.toNat, ∃ c, config? m t i = some c ∧ At ((m.execute t).after i) i c

/-! ## One step -/

variable {m : Machine} {e : Execution} {c : Config} {k : Nat} {budget : StepCount}

theorem At.symbol (h : At e k c) : e.symbol = c.symbol := by
  rw [Execution.symbol, h.cells, h.head]
  rfl

theorem At.transition? (h : At e k c) (hm : e.machine = m) :
    e.transition? = m.transition? c.state c.symbol := by
  rw [Execution.transition?, h.symbol, h.state, hm]

/-- One step of the execution is one step of the textbook machine. -/
theorem At.apply {t : Transition} (h : At e k c) (hc : c.head.natAbs + 1 < 2 ^ 63)
    (hs : e.steps < budget) : At (e.apply t) (k + 1) (c.apply t) where
  state := rfl
  head := by rw [Execution.toInt_head_apply t (h.head ▸ hc), h.head]; rfl
  steps := by rw [Execution.toNat_steps_apply_of_lt t hs, h.steps]
  cells p := by
    have hp : p = e.head ↔ p.toInt = c.head := by rw [← h.head, Int64.toInt_inj]
    by_cases hph : p = e.head
    · simp [Execution.apply, Config.apply, hph, h.head]
    · simp [Execution.apply, Config.apply, Tape.read_write, hph, mt hp.2 hph, h.cells]

theorem At.next? {t : Transition} (h : At e k c) (hm : e.machine = m) (ht : e.upcoming = .ok t) :
    c.next? m = some (c.apply t) := by
  obtain ⟨hh, ht⟩ := Execution.upcoming_eq_ok_iff.1 ht
  rw [h.transition? hm] at ht
  rw [h.state, hm] at hh
  rw [Config.next?, if_neg hh, ht]
  rfl

/-- A run goes on where the textbook machine has no reason to stop. -/
theorem At.not_stops (h : At e k c) (hm : e.machine = m) (hs : e.stop? budget = none) :
    ¬ c.Stops m budget.toNat k := by
  obtain ⟨hb, t, ht⟩ := Execution.stop?_eq_none_iff.1 hs
  obtain ⟨hh, ht⟩ := Execution.upcoming_eq_ok_iff.1 ht
  have hb := UInt64.lt_iff_toNat_lt.1 hb
  rw [h.steps] at hb
  rw [h.transition? hm] at ht
  rintro (hc | rfl | hc)
  · exact hh (by rw [h.state, hm, hc])
  · exact absurd hb (Nat.lt_irrefl _)
  · rw [hc] at ht
    cases ht

/-- A run stops for the reason that the textbook machine has. -/
theorem At.stops {halt : Halt} (h : At e k c) (hm : e.machine = m) (hk : k ≤ budget.toNat)
    (hs : e.stop? budget = some halt) :
    c.Stops m budget.toNat k ∧ halt = c.reason m budget.toNat k := by
  rcases Execution.stop?_eq_some_iff.1 hs with ⟨hh, rfl⟩ | ⟨hh, hb, rfl⟩ | ⟨hh, hb, ht, rfl⟩
  · rw [h.state, hm] at hh
    exact ⟨.inl hh, by simp [Config.reason, hh]⟩
  · rw [h.state, hm] at hh
    have hb := UInt64.le_iff_toNat_le.1 hb
    have hk : k = budget.toNat := by rw [h.steps] at hb; omega
    exact ⟨.inr (.inl hk), by simp [Config.reason, hh, hk]⟩
  · rw [h.state, hm] at hh
    have hb := UInt64.lt_iff_toNat_lt.1 hb
    have hk : k ≠ budget.toNat := by rw [h.steps] at hb; omega
    rw [h.transition? hm] at ht
    exact ⟨.inr (.inr ht), by simp [Config.reason, hh, hk, h.state, h.symbol]⟩

/-! ## Whole runs -/

theorem at_execute (m : Machine) (t : Tape) :
    At (m.execute t) 0 ⟨m.start, 0, t.contents⟩ where
  state := rfl
  head := rfl
  cells p := (t.contents_toInt p).symm
  steps := rfl

/-- Up to where the run stops, `i` steps lead to the `i`th configuration. -/
theorem at_after {t : Tape} {n : Nat} {halt : Halt} (hb : budget.toNat < 2 ^ 63)
    (h : (m.execute t).StopsAfter budget n halt) {i : Nat} (hi : i ≤ n) :
    ∃ c, config? m t i = some c ∧ At ((m.execute t).after i) i c ∧ c.head.natAbs ≤ i := by
  induction i with
  | zero => exact ⟨_, rfl, at_execute m t, le_rfl⟩
  | succ i ih =>
    obtain ⟨c, hc, hat, hle⟩ := ih (by omega)
    obtain ⟨hs, u, hu, hn⟩ := h.moved hi
    have hi' : i < budget.toNat := hat.steps ▸ UInt64.lt_iff_toNat_lt.1 hs
    -- the head is at most `i` away from where it started, so this move does not wrap
    refine ⟨c.apply u, ?_, hn ▸ hat.apply (by omega) hs, ?_⟩
    · rw [config?, hc]
      exact hat.next? (Execution.machine_after _ i) hu
    · have := u.direction.natAbs_shift_le
      simp only [Config.apply]
      omega

/-- A run comes to what the textbook machine comes to. -/
theorem run_refines (m : Machine) (t : Tape) (budget : StepCount) (hb : budget.toNat < 2 ^ 63) :
    Refines m t budget.toNat (m.run t budget) := by
  obtain ⟨n, halt, h⟩ := Execution.exists_stopsAfter budget (m.execute t)
  have hrun : m.run t budget = ((m.execute t).after n).outcome halt := Execution.run_fst .silent () h
  obtain ⟨c, hc, hat, -⟩ := at_after hb h le_rfl
  have hn : (m.run t budget).steps.toNat = n := hrun ▸ hat.steps
  have hle : n ≤ budget.toNat := by simpa [Machine.execute] using h.steps_add_le (UInt64.zero_le)
  obtain ⟨hstops, hreason⟩ := hat.stops (Execution.machine_after _ n) hle h.stops
  refine ⟨?_, ⟨c, ?_⟩, ?_⟩
  · rw [hn]
    refine ⟨⟨c, hc, hstops⟩, fun k hk => ?_⟩
    obtain ⟨d, hd, hdk⟩ := hk
    -- a reason to stop any earlier would have stopped the run there
    by_contra hlt
    obtain ⟨d', hd', hat', -⟩ := at_after hb h (Nat.le_of_not_le hlt)
    cases hd.symm.trans hd'
    exact hat'.not_stops (Execution.machine_after _ k) (h.moves k (Nat.lt_of_not_le hlt)) hdk
  · rw [hn, hrun]
    exact ⟨hc, hat.state, hat.head, hat.cells, hreason⟩
  · intro i hi
    obtain ⟨d, hd, hat', -⟩ := at_after hb h (hn ▸ hi)
    exact ⟨d, hd, hat'⟩

/-- On a tape with another blank, where it halts with the last step of its budget. -/
theorem run_refines_twoOnes :
    (1 : StepCount).toNat < 2 ^ 63 ∧
      Refines .twoOnes (.empty '1') (1 : StepCount).toNat (Machine.twoOnes.run (.empty '1') 1) :=
  ⟨by decide, run_refines _ _ 1 (by decide)⟩

end Textbook

end TapeMachine
