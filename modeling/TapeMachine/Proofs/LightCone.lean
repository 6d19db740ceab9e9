import Mathlib
import TapeMachine.Proofs.Lockstep
import TapeMachine.Proofs.Tape.Extent
/-!
# The light cone of a run

A head moves by one cell with each step, so that a run neither reads nor writes further from
position 0 than it has steps. What stands there after the run is what stood there before (`InCone`),
and what stands there makes no difference to a run that has no budget to get there (`AlikeInCone`).
`lightCone` has both.
-/

namespace TapeMachine

/-! ## Tapes -/

namespace Tape

variable {t u : Tape} {p : Position} {s : Symbol} {r : Nat}

/-- A write adds a cell, takes one away or leaves the number as it is. -/
theorem size_write (t : Tape) (p : Position) (s : Symbol) :
    (t.write p s).size ≤ t.size + 1 ∧ t.size ≤ (t.write p s).size + 1 := by
  unfold write size
  split
  · exact ⟨Nat.le_succ_of_le Std.ExtTreeMap.size_erase_le, Std.ExtTreeMap.size_le_size_erase⟩
  · exact ⟨Std.ExtTreeMap.size_insert_le, Nat.le_succ_of_le Std.ExtTreeMap.size_le_size_insert⟩

/-- The tapes read alike at every position less than `r` cells from position 0. Their blanks may be
different ones, so that neither of them need store what the other one stores. -/
def AlikeWithin (r : Nat) (t u : Tape) : Prop :=
  ∀ p : Position, p.toInt.natAbs < r → t.read p = u.read p

theorem AlikeWithin.write (h : AlikeWithin r t u) (p : Position) (s : Symbol) :
    AlikeWithin r (t.write p s) (u.write p s) := by
  intro q hq
  rw [read_write, read_write, h q hq]

end Tape

namespace Execution

variable {e e' : Execution} {t : Transition} {tape : Tape} {halt : Halt} {budget : StepCount}
  {n : Nat}

/-! ## One run -/

/-- The execution, begun on `tape`, has been no further from position 0 than it has taken steps, and
has changed at most one cell with each of them. -/
structure InCone (tape : Tape) (e : Execution) : Prop where
  head : e.head.toInt.natAbs ≤ e.steps.toNat
  read : ∀ p : Position, e.steps.toNat ≤ p.toInt.natAbs → e.tape.read p = tape.read p
  size_le : e.tape.size ≤ tape.size + e.steps.toNat
  le_size : tape.size ≤ e.tape.size + e.steps.toNat

theorem inCone_execute (m : Machine) (tape : Tape) : InCone tape (m.execute tape) :=
  ⟨le_rfl, fun _ _ => rfl, le_rfl, le_rfl⟩

theorem InCone.apply (h : InCone tape e) (t : Transition) (hs : e.steps.toNat + 1 < 2 ^ 63) :
    InCone tape (e.apply t) := by
  have hsteps := toNat_steps_apply (e := e) t (by omega)
  obtain ⟨hle, hge⟩ := e.tape.size_write e.head t.write
  have hsize := h.size_le
  have hsize' := h.le_size
  refine ⟨natAbs_head_apply_le t h.head hs, fun p hp => ?_, ?_, ?_⟩
  · -- the cell that is written is at most as far away as there were steps before
    have hne : p ≠ e.head := by
      rintro rfl
      have := h.head
      omega
    rw [← h.read p (by omega)]
    exact Tape.read_write_of_ne e.tape t.write hne
  · rw [hsteps]
    exact hle.trans (by omega)
  · rw [hsteps]
    exact hsize'.trans (by simp only [Execution.apply]; omega)

theorem StopsAfter.inCone (h : e.StopsAfter budget n halt) (hb : budget.toNat < 2 ^ 63)
    (he : InCone tape e) {i : Nat} (hi : i ≤ n) : InCone tape (e.after i) := by
  refine h.inv (InCone tape) he (fun e t hcone hs => ?_) hi
  have := UInt64.lt_iff_toNat_lt.1 hs
  exact hcone.apply t (by omega)

/-! ## Two runs -/

/-- The executions differ at most in what stands on their tapes `r` cells or more from position 0,
and have not got beyond that. -/
structure AlikeInCone (r : Nat) (e e' : Execution) : Prop where
  machine : e'.machine = e.machine
  state : e'.state = e.state
  head : e'.head = e.head
  steps : e'.steps = e.steps
  near : e.head.toInt.natAbs ≤ e.steps.toNat
  tape : Tape.AlikeWithin r e.tape e'.tape

namespace AlikeInCone

variable {r : Nat}

theorem symbol (h : AlikeInCone r e e') (hs : e.steps.toNat < r) : e'.symbol = e.symbol := by
  rw [Execution.symbol, Execution.symbol, h.head]
  exact (h.tape e.head (h.near.trans_lt hs)).symm

theorem transition? (h : AlikeInCone r e e') (hs : e.steps.toNat < r) :
    e'.transition? = e.transition? := by
  rw [Execution.transition?, Execution.transition?, h.machine, h.state, h.symbol hs]

theorem event (h : AlikeInCone r e e') (hs : e.steps.toNat < r) (t : Transition) :
    e'.event t = e.event t := by
  rw [Execution.event, Execution.event, h.steps, h.state, h.head, h.symbol hs]

theorem apply (h : AlikeInCone r e e') (hs : e.steps.toNat + 1 < 2 ^ 63) (t : Transition) :
    AlikeInCone r (e.apply t) (e'.apply t) where
  machine := h.machine
  state := rfl
  head := by rw [Execution.apply, Execution.apply, h.head]
  steps := by rw [Execution.apply, Execution.apply, h.steps]
  near := natAbs_head_apply_le t h.near hs
  tape := by
    rw [Execution.apply, Execution.apply, h.head]
    exact h.tape.write e.head t.write

/-- As long as there is budget left, the cell under the head is one at which the tapes read alike. -/
theorem lockstep (hb : budget.toNat < 2 ^ 63) :
    Lockstep budget id id id (AlikeInCone budget.toNat) where
  steps h := h.steps
  halted h := by rw [h.state, h.machine]
  moves {e e' t} h hs hu := by
    have hlt := UInt64.lt_iff_toNat_lt.1 hs
    refine ⟨t, ?_, h.event hlt t, h.apply (by omega) t⟩
    rw [h.transition? hlt]
    exact (upcoming_eq_ok_iff.1 hu).2
  stuck h hs ht := by
    have hlt := UInt64.lt_iff_toNat_lt.1 hs
    exact ⟨(h.transition? hlt).trans ht, h.state, h.symbol hlt⟩

end AlikeInCone

end Execution

/-! ## Outcomes -/

/-- What a run with a budget can do to a tape. -/
structure StaysInCone (tape : Tape) (budget : StepCount) (o : Outcome) : Prop where
  head : o.head.toInt.natAbs ≤ o.steps.toNat
  steps : o.steps ≤ budget
  read : ∀ p : Position, o.steps.toNat ≤ p.toInt.natAbs → o.tape.read p = tape.read p
  size_le : o.tape.size ≤ tape.size + o.steps.toNat
  le_size : tape.size ≤ o.tape.size + o.steps.toNat

/-- The runs on the two tapes come to the same, apart from cells to which the budget does not
reach. -/
structure SameInCone (m : Machine) (tape tape' : Tape) (budget : StepCount) : Prop where
  steps : (m.run tape' budget).steps = (m.run tape budget).steps
  state : (m.run tape' budget).state = (m.run tape budget).state
  head : (m.run tape' budget).head = (m.run tape budget).head
  halt : (m.run tape' budget).halt = (m.run tape budget).halt
  record : (m.execute tape').record budget = (m.execute tape).record budget
  tape : Tape.AlikeWithin budget.toNat (m.run tape budget).tape (m.run tape' budget).tape

theorem staysInCone (m : Machine) (tape : Tape) {budget : StepCount} (hb : budget.toNat < 2 ^ 63) :
    StaysInCone tape budget (m.run tape budget) := by
  obtain ⟨n, halt, hs⟩ := Execution.exists_stopsAfter budget (m.execute tape)
  have hcone := hs.inCone hb (Execution.inCone_execute m tape) le_rfl
  have hle := hs.steps_add_le UInt64.zero_le
  rw [Machine.run, Execution.run_fst .silent () hs]
  refine ⟨hcone.head, ?_, hcone.read, hcone.size_le, hcone.le_size⟩
  rw [UInt64.le_iff_toNat_le, Execution.outcome, hs.toNat_steps le_rfl]
  exact hle

theorem sameInCone (m : Machine) {tape tape' : Tape} {budget : StepCount}
    (hb : budget.toNat < 2 ^ 63) (h : Tape.AlikeWithin budget.toNat tape tape') :
    SameInCone m tape tape' budget := by
  have hstart : Execution.AlikeInCone budget.toNat (m.execute tape) (m.execute tape') :=
    ⟨rfl, rfl, rfl, rfl, le_rfl, h⟩
  have hlock := Execution.AlikeInCone.lockstep hb
  have hrecord := hlock.record hstart
  rw [List.map_id] at hrecord
  obtain ⟨n, halt, hs⟩ := Execution.exists_stopsAfter budget (m.execute tape)
  obtain ⟨hlast, hs', -⟩ := hlock.stopsAfter hstart hs
  have hrun : m.run tape budget = ((m.execute tape).after n).outcome halt :=
    Execution.run_fst .silent () hs
  have hrun' : m.run tape' budget = ((m.execute tape').after n).outcome (halt.map id id) :=
    Execution.run_fst .silent () hs'
  constructor
  · rw [hrun, hrun']
    exact hlast.steps
  · rw [hrun, hrun']
    exact hlast.state
  · rw [hrun, hrun']
    exact hlast.head
  · rw [hrun, hrun']
    exact halt.map_id
  · exact hrecord
  · rw [hrun, hrun']
    exact hlast.tape

/-- With a budget below `2 ^ 63` a run stays in its cone, and runs on tapes that read alike in the
cone of the budget are alike. The two cones are not the same: a run does not change a cell that is as
far away as it has steps, but the tapes need only read alike where it is nearer than the budget. -/
theorem lightCone (m : Machine) (budget : StepCount) (hb : budget.toNat < 2 ^ 63) :
    (∀ tape, StaysInCone tape budget (m.run tape budget)) ∧
      ∀ tape tape', Tape.AlikeWithin budget.toNat tape tape' → SameInCone m tape tape' budget :=
  ⟨fun tape => staysInCone m tape hb, fun _ _ => sameInCone m hb⟩

/-- A tape with another blank than the blank of `Machine.twoOnes`, and that one around position 0. -/
def Tape.island : Tape :=
  (Tape.empty 'x').writeAll [(-2, '_'), (-1, '_'), (0, '_'), (1, '_'), (2, '_')]

theorem Tape.alikeWithin_island : AlikeWithin 3 (.empty '_') .island := by
  intro p hp
  have hnear : p = -2 ∨ p = -1 ∨ p = 0 ∨ p = 1 ∨ p = 2 := by
    simp only [← Int64.toInt_inj, Int64.reduceToInt]
    omega
  rcases hnear with rfl | rfl | rfl | rfl | rfl <;> decide

/-- The two ones are written on the island as on a blank tape. -/
theorem lightCone_twoOnes :
    (3 : StepCount).toNat < 2 ^ 63 ∧
      Tape.AlikeWithin (3 : StepCount).toNat (.empty '_') .island ∧
      SameInCone .twoOnes (.empty '_') .island 3 :=
  have hb : (3 : StepCount).toNat < 2 ^ 63 := by decide
  ⟨hb, Tape.alikeWithin_island, (lightCone .twoOnes 3 hb).2 _ _ Tape.alikeWithin_island⟩

end TapeMachine
