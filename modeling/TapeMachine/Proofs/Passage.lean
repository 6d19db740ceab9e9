import Mathlib
import TapeMachine.Proofs.Tape.Text
import TapeMachine.Proofs.Trajectory
/-!
# Passages

What a given machine does is said by how it gets from one configuration to another, with the tape as
the two texts on either side of its head. `Machine.Passes` is a number of steps from one configuration
to another, whatever execution is in the first of them. Passages follow one another (`Passes.trans`),
and transitions that lead back to their own state make a sweep (`passes_sweep`). A passage from the
start to the halt state is all of a run that has the budget for it (`Passes.haltsAt`), and a run that
has not uses its budget up (`Passes.exhausts`).
-/

namespace TapeMachine

/-! ## Configurations -/

/-- A state, the position of the head, and what stands on either side: `left` from the head to the
left, `right` from the cell under the head to the right. Everything else is blank. -/
structure Configuration where
  state : State
  head : Int
  left : List Symbol
  right : List Symbol

namespace Configuration

/-- The text on both sides. -/
def text (c : Configuration) : List Symbol := c.left.reverse ++ c.right

/-- Where the text begins. -/
def first (c : Configuration) : Int := c.head - c.left.length

/-- The symbol under the head. -/
def symbol (blank : Symbol) (c : Configuration) : Symbol := c.right.headD blank

/-- The configuration after a transition. -/
def apply (blank : Symbol) (c : Configuration) (t : Transition) : Configuration :=
  match t.direction with
  | .left => ⟨t.next, c.head - 1, c.left.tail, c.left.headD blank :: t.write :: c.right.tail⟩
  | .right => ⟨t.next, c.head + 1, t.write :: c.left, c.right.tail⟩
  | .stay => ⟨t.next, c.head, c.left, t.write :: c.right.tail⟩

/-- There is a position to move to. -/
def HasRoom (c : Configuration) : Direction → Prop
  | .left => -2 ^ 63 < c.head
  | .right => c.head + 1 < 2 ^ 63
  | .stay => True

theorem HasRoom.add_shift_mem {c : Configuration} {d : Direction} (h : c.HasRoom d)
    (hl : -2 ^ 63 ≤ c.head) (hu : c.head < 2 ^ 63) :
    -2 ^ 63 ≤ c.head + d.shift ∧ c.head + d.shift < 2 ^ 63 := by
  cases d <;> simp only [HasRoom] at h <;> simp only [Direction.shift] <;> omega

@[simp] theorem state_apply (blank : Symbol) (c : Configuration) (t : Transition) :
    (c.apply blank t).state = t.next := by
  unfold apply
  split <;> rfl

@[simp] theorem head_apply (blank : Symbol) (c : Configuration) (t : Transition) :
    (c.apply blank t).head = c.head + t.direction.shift := by
  unfold apply
  split <;> simp_all [Direction.shift, sub_eq_add_neg]

/-- A move changes nothing on the tape. If it leaves the text, a blank comes in. -/
theorem holds_apply {tape : Tape} {c : Configuration} {t : Transition} {blank : Symbol}
    (hb : tape.blank = blank) (h : tape.Holds c.first (c.left.reverse ++ t.write :: c.right.tail)) :
    tape.Holds (c.apply blank t).first (c.apply blank t).text := by
  unfold first at h
  unfold apply first text
  cases t.direction with
  | right => simpa using h
  | stay => exact h
  | left =>
    cases hc : c.left with
    | cons s left =>
      have hfirst : c.head - (left.length + 1) = c.head - 1 - left.length := by omega
      simpa [hc, hfirst] using h
    | nil =>
      rw [hc, ← Tape.holds_cons_blank, hb] at h
      simpa using h

end Configuration

namespace Execution

variable {m : Machine} {e : Execution} {c : Configuration} {t : Transition}

/-- The execution of the machine is in the configuration. -/
structure IsAt (m : Machine) (c : Configuration) (e : Execution) : Prop where
  machine : e.machine = m
  blank : e.tape.blank = m.blank
  state : e.state = c.state
  head : e.head.toInt = c.head
  tape : e.tape.Holds c.first c.text

theorem isAt_execute (m : Machine) (input : String) :
    IsAt m ⟨m.start, 0, [], input.toList⟩ (m.execute (m.tape input)) where
  machine := rfl
  blank := Tape.blank_ofString input m.blank
  state := rfl
  head := rfl
  tape := Tape.holds_ofString input m.blank

namespace IsAt

/-- To the right of the text stands a blank, too. -/
theorem holds (h : IsAt m c e) :
    e.tape.Holds c.first (c.left.reverse ++ c.symbol m.blank :: c.right.tail) := by
  have htape := h.tape
  unfold Configuration.text at htape
  unfold Configuration.symbol
  cases hr : c.right with
  | nil =>
    rw [hr, List.append_nil, ← Tape.holds_append_blank, h.blank] at htape
    exact htape
  | cons s right =>
    rw [hr] at htape
    exact htape

theorem head_eq (h : IsAt m c e) : e.head.toInt = c.first + c.left.reverse.length := by
  rw [h.head, Configuration.first, List.length_reverse]
  omega

theorem symbol (h : IsAt m c e) : e.symbol = c.symbol m.blank :=
  h.holds.read h.head_eq

theorem upcoming (h : IsAt m c e) (hne : c.state ≠ m.halt)
    (ht : m.transition? c.state (c.symbol m.blank) = some t) : e.upcoming = .ok t := by
  rw [upcoming_eq_ok_iff, transition?, h.machine, h.state, h.symbol]
  exact ⟨hne, ht⟩

theorem toInt_head_apply (h : IsAt m c e) (t : Transition) (hroom : c.HasRoom t.direction) :
    (e.apply t).head.toInt = c.head + t.direction.shift := by
  have hmem := hroom.add_shift_mem (h.head ▸ e.head.le_toInt) (h.head ▸ e.head.toInt_lt)
  rw [← h.head] at hmem ⊢
  exact toInt_head_apply_of_mem t hmem.1 hmem.2

theorem apply (h : IsAt m c e) (t : Transition) (hroom : c.HasRoom t.direction) :
    IsAt m (c.apply m.blank t) (e.apply t) where
  machine := h.machine
  blank := (Tape.blank_write _ _ _).trans h.blank
  state := (c.state_apply m.blank t).symm
  head := by rw [h.toInt_head_apply t hroom, c.head_apply]
  tape := Configuration.holds_apply ((Tape.blank_write _ _ _).trans h.blank)
    (h.holds.write h.head_eq t.write)

end IsAt

end Execution

/-! ## From one configuration to another -/

namespace Machine

variable {m : Machine} {c c' c'' : Configuration} {t : Transition} {n k : Nat}

/-- An execution that is in the first configuration takes `n` steps and is in the second one. -/
def Passes (m : Machine) (n : Nat) (c c' : Configuration) : Prop :=
  ∀ e, Execution.IsAt m c e → e.Moves n ∧ Execution.IsAt m c' (e.after n)

theorem Passes.refl (m : Machine) (c : Configuration) : m.Passes 0 c c :=
  fun _ h => ⟨by simp [Execution.Moves], h⟩

theorem Passes.trans (h : m.Passes n c c') (h' : m.Passes k c' c'') : m.Passes (n + k) c c'' := by
  intro e he
  obtain ⟨hn, hc'⟩ := h e he
  obtain ⟨hk, hc''⟩ := h' _ hc'
  exact ⟨hn.add hk, Execution.after_add e n k ▸ hc''⟩

/-- One step, if there is a position to step to. -/
theorem passes_one (hne : c.state ≠ m.halt)
    (ht : m.transition? c.state (c.symbol m.blank) = some t) (hroom : c.HasRoom t.direction) :
    m.Passes 1 c (c.apply m.blank t) := by
  intro e he
  have hok := he.upcoming hne ht
  refine ⟨fun i hi => ⟨t, ?_⟩, ?_⟩
  · rwa [Nat.lt_one_iff.1 hi]
  · rw [Execution.after_succ', Execution.after_zero, Execution.next_of_ok hok]
    exact he.apply t hroom

theorem Passes.step (h : m.Passes n c c') (hne : c'.state ≠ m.halt)
    (ht : m.transition? c'.state (c'.symbol m.blank) = some t) (hroom : c'.HasRoom t.direction) :
    m.Passes (n + 1) c (c'.apply m.blank t) :=
  h.trans (passes_one hne ht hroom)

/-- A sweep to the right in one state, which makes `f s` of each symbol `s`. -/
theorem passes_sweep {state : State} (f : Symbol → Symbol) {passed : List Symbol}
    (hne : state ≠ m.halt)
    (ht : ∀ s ∈ passed, m.transition? state s = some ⟨state, f s, .right⟩) (head : Int)
    (left right : List Symbol) (hu : head + passed.length < 2 ^ 63) :
    m.Passes passed.length ⟨state, head, left, passed ++ right⟩
      ⟨state, head + passed.length, (passed.map f).reverse ++ left, right⟩ := by
  induction passed generalizing head left with
  | nil => simpa using Passes.refl m _
  | cons s passed ih =>
    rw [List.length_cons, Nat.cast_add_one] at hu
    have hone : m.Passes 1 ⟨state, head, left, s :: (passed ++ right)⟩
        ⟨state, head + 1, f s :: left, passed ++ right⟩ :=
      passes_one (t := ⟨state, f s, .right⟩) hne (ht s List.mem_cons_self)
        (show head + 1 < 2 ^ 63 by omega)
    have hrest := ih (fun s hs => ht s (List.mem_cons_of_mem _ hs)) (head + 1) (f s :: left)
      (by omega)
    have hall := hone.trans hrest
    have hhead : head + 1 + passed.length = head + (passed.length + 1) := by omega
    rw [add_comm] at hall
    simpa [hhead] using hall

/-! ## Runs -/

/-- What a run on a text comes to if it halts after `n` steps: a halt in the configuration. -/
structure HaltsAt (m : Machine) (n : Nat) (c : Configuration) (o : Outcome) : Prop where
  halt : o.halt = .halted
  steps : o.steps.toNat = n
  state : o.state = c.state
  head : o.head.toInt = c.head
  blank : o.tape.blank = m.blank
  tape : o.tape.Holds c.first c.text

/-- A passage to the halt state is all there is of a run that has the budget for it. -/
theorem Passes.haltsAt {input : String} (h : m.Passes n ⟨m.start, 0, [], input.toList⟩ c)
    (hc : c.state = m.halt) {budget : StepCount} (hb : n ≤ budget.toNat) :
    m.HaltsAt n c (m.run (m.tape input) budget) := by
  obtain ⟨hmoves, hat⟩ := h _ (Execution.isAt_execute m input)
  have hs : (m.execute (m.tape input)).StopsAfter budget n .halted :=
    hmoves.stopsAfter_of_halt (by simpa using hb) (hat.state.trans hc)
  rw [Machine.run, Execution.run_fst .silent () hs]
  exact {
    halt := rfl
    steps := by
      rw [Execution.outcome, hs.toNat_steps le_rfl]
      simp
    state := hat.state
    head := hat.head
    blank := hat.blank
    tape := hat.tape }

/-- With a smaller budget the run uses it up. -/
theorem Passes.exhausts {input : String} (h : m.Passes n ⟨m.start, 0, [], input.toList⟩ c)
    {budget : StepCount} (hb : budget.toNat < n) :
    (m.run (m.tape input) budget).halt = .budgetExceeded ∧
      (m.run (m.tape input) budget).steps = budget := by
  obtain ⟨hmoves, -⟩ := h _ (Execution.isAt_execute m input)
  have hs : (m.execute (m.tape input)).StopsAfter budget budget.toNat .budgetExceeded :=
    (hmoves.mono hb).stopsAfter (by simp)
  rw [Machine.run, Execution.run_fst .silent () hs]
  refine ⟨rfl, ?_⟩
  rw [← UInt64.toNat_inj, Execution.outcome, hs.toNat_steps le_rfl]
  simp

/-- With the text on its tape the machine comes to its halt state in at most `n` steps. -/
def HaltsWithin (m : Machine) (n : Nat) (text : List Symbol) : Prop :=
  ∃ k ≤ n, ∃ c : Configuration, c.state = m.halt ∧ m.Passes k ⟨m.start, 0, [], text⟩ c

theorem HaltsWithin.mono {text : List Symbol} (h : m.HaltsWithin n text) (hk : n ≤ k) :
    m.HaltsWithin k text := by
  obtain ⟨i, hi, c, hc, hpass⟩ := h
  exact ⟨i, hi.trans hk, c, hc, hpass⟩

theorem HaltsWithin.halt {input : String} (h : m.HaltsWithin n input.toList) {budget : StepCount}
    (hb : n ≤ budget.toNat) : (m.run (m.tape input) budget).halt = .halted := by
  obtain ⟨k, hk, c, hc, hpass⟩ := h
  exact (hpass.haltsAt hc (hk.trans hb)).halt

end Machine

end TapeMachine
