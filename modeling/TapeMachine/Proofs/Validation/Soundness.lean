import Mathlib
import TapeMachine.Proofs.Tape.History
import TapeMachine.Proofs.Trajectory
import TapeMachine.Proofs.Validation.Verdict
/-!
# Validated machines stay within what they declare

A machine that passes the check, on a tape that passes it, never leaves its declared states and its
known symbols: `staysDeclared_of_validate`. One step keeps this (`IsKnown.apply`) because the table's
targets and what it writes were checked; the start, the text on the tape and the blank are where it
begins.
-/

namespace TapeMachine

namespace Tape

variable {t : Tape} {c : Symbol}

/-- What is rendered is read somewhere. -/
theorem exists_read_of_mem_render (h : c ∈ t.render.toList) : ∃ p, t.read p = c := by
  unfold render at h
  split at h
  · simp at h
  · rw [String.toList_ofList] at h
    obtain ⟨i, -, hi⟩ := List.mem_map.1 h
    exact ⟨_, hi⟩

/-- What is read on a tape that holds a text is in the text or blank. -/
theorem read_ofString_mem (text : String) (b : Symbol) (p : Position) :
    (ofString text b).read p ∈ text.toList ∨ (ofString text b).read p = b := by
  rw [read_ofString, charAt?]
  split
  · cases hc : text.toList[(p.toInt - (0 : Nat)).toNat]? with
    | none => exact .inr rfl
    | some c => exact .inl (List.mem_of_getElem? hc)
  · exact .inr rfl

end Tape

/-! ## Steps -/

namespace Execution

variable {e : Execution} {t : Transition} {n : Nat}

/-- The machine is in a declared state and every cell holds a known symbol. -/
structure IsKnown (e : Execution) : Prop where
  state : e.state ∈ e.machine.states
  read : ∀ p, e.tape.read p ∈ e.machine.knownSymbols

theorem IsKnown.apply (h : e.IsKnown) (hm : e.machine.IsDeclared) (ht : e.upcoming = .ok t) :
    (e.apply t).IsKnown := by
  have htable := (upcoming_eq_ok_iff.1 ht).2
  refine ⟨(hm.states _ _ _ htable).2, fun p => ?_⟩
  rw [Execution.apply, Tape.read_write]
  -- the cell under the head holds what the table writes, and every other what it held
  split
  · exact (hm.symbols _ _ _ htable).2
  · exact h.read p

theorem IsKnown.after (h : e.IsKnown) (hm : e.machine.IsDeclared) (n : Nat) :
    (e.after n).IsKnown := by
  have hinv : (e.after n).machine.IsDeclared ∧ (e.after n).IsKnown := by
    refine inv_after (fun e => e.machine.IsDeclared ∧ e.IsKnown) ⟨hm, h⟩ ?_ n
    rintro e t ⟨hm, h⟩ hu
    exact ⟨hm, h.apply hm hu⟩
  exact hinv.2

theorem isKnown_execute {m : Machine} {input : String} (hm : m.IsDeclared)
    (hi : m.validateTape input = .ok ()) : (m.execute (m.tape input)).IsKnown where
  state := hm.start
  read p := by
    -- a cell outside the text holds the blank, which is known without being in the alphabet
    rcases Tape.read_ofString_mem input m.blank p with h | h
    · exact Machine.validateTape_eq_ok_iff.1 hi _ h
    · exact Machine.mem_knownSymbols.2 (.inr h)

/-- What is rendered from known symbols is known. -/
theorem IsKnown.validateTape_render (h : e.IsKnown) :
    e.machine.validateTape e.tape.render = .ok () := by
  refine Machine.validateTape_eq_ok_iff.2 fun symbol hs => ?_
  obtain ⟨p, rfl⟩ := Tape.exists_read_of_mem_render hs
  exact h.read p

end Execution

/-! ## Stopping -/

/-- What an undefined transition may name. -/
def Machine.MayLack (m : Machine) (state : State) (symbol : Symbol) : Prop :=
  state ∈ m.states ∧ state ≠ m.halt ∧ (symbol ∈ m.alphabet ∨ symbol = m.blank)

/-- The state is declared, and the symbols on the tape are known and can be validated again. -/
structure Machine.Knows (m : Machine) (state : State) (tape : Tape) : Prop where
  state : state ∈ m.states
  read : ∀ p, tape.read p ∈ m.alphabet ∨ tape.read p = m.blank
  render : m.validateTape tape.render = .ok ()

namespace Execution

variable {σ : Type} {e : Execution} {m : Machine} {halt : Halt} {budget : StepCount}

theorem IsKnown.knows (h : e.IsKnown) : e.machine.Knows e.state e.tape where
  state := h.state
  read p := Machine.mem_knownSymbols.1 (h.read p)
  render := h.validateTape_render

theorem IsKnown.mayLack {state : State} {symbol : Symbol} (h : e.IsKnown)
    (hu : e.upcoming = .error (.undefinedTransition state symbol)) :
    e.machine.MayLack state symbol := by
  rcases upcoming_eq_error_iff.1 hu with ⟨-, hh⟩ | ⟨hne, -, hh⟩
  · cases hh
  · cases hh
    exact ⟨h.state, hne, Machine.mem_knownSymbols.1 (h.read e.head)⟩

/-- The machine knows where the execution has got to, and all that a step or a run from there, however
it is watched, comes to. -/
structure StaysDeclared (m : Machine) (e : Execution) : Prop where
  knows : m.Knows e.state e.tape
  step : ∀ (σ : Type) (observer : Observer σ) (memory : σ) (state : State) (symbol : Symbol),
    (e.step observer memory).1 = .stopped (.undefinedTransition state symbol) →
    m.MayLack state symbol
  outcome : ∀ (σ : Type) (observer : Observer σ) (memory : σ) (budget : StepCount),
    m.Knows (e.run observer budget memory).1.state (e.run observer budget memory).1.tape
  run : ∀ (σ : Type) (observer : Observer σ) (memory : σ) (budget : StepCount) (state : State)
    (symbol : Symbol), (e.run observer budget memory).1.halt = .undefinedTransition state symbol →
    m.MayLack state symbol

theorem IsKnown.staysDeclared (h : e.IsKnown) (he : e.machine = m) (hm : m.IsDeclared) :
    StaysDeclared m e := by
  subst he
  have hafter (n : Nat) : (e.after n).machine = e.machine := machine_after e n
  refine ⟨h.knows, ?_, ?_, ?_⟩
  · intro σ observer memory state symbol hs
    exact h.mayLack ((step_fst_eq_stopped_iff observer memory).1 hs)
  · intro σ observer memory budget
    obtain ⟨n, halt, hn⟩ := exists_stopsAfter budget e
    rw [run_fst observer memory hn]
    exact hafter n ▸ (h.after hm n).knows
  · intro σ observer memory budget state symbol hhalt
    obtain ⟨n, halt, hn⟩ := exists_stopsAfter budget e
    rw [run_fst observer memory hn] at hhalt
    have hstops : (e.after n).stop? budget = some (.undefinedTransition state symbol) :=
      hn.stops.trans (congrArg some hhalt)
    exact hafter n ▸ (h.after hm n).mayLack (upcoming_of_stop? hstops)

/-- A validated machine on a validated tape stays within what it declares, at every moment. -/
theorem staysDeclared_of_validate (m : Machine) (input : String) (n : Nat) (e : Execution)
    (hm : m.validate = .ok ()) (hi : m.validateTape input = .ok ())
    (he : Stepped (m.execute (m.tape input)) n e) : StaysDeclared m e := by
  cases stepped_iff.1 he
  have hm := Machine.validate_eq_ok_iff.1 hm
  exact ((isKnown_execute hm hi).after hm n).staysDeclared (machine_after _ n) hm

/-- On a tape that makes it stop in its second state for want of a transition. -/
theorem staysDeclared_of_validate_twoOnes :
    Machine.twoOnes.validate = .ok () ∧ Machine.twoOnes.validateTape "_1" = .ok () ∧
      Stepped (Machine.twoOnes.execute (Machine.twoOnes.tape "_1")) 1
        ((Machine.twoOnes.execute (Machine.twoOnes.tape "_1")).step .silent ()).2.1 ∧
      (((Machine.twoOnes.execute (Machine.twoOnes.tape "_1")).step .silent ()).2.1.step .silent ()).1 =
        .stopped (.undefinedTransition "second" '1') ∧
      StaysDeclared .twoOnes
        ((Machine.twoOnes.execute (Machine.twoOnes.tape "_1")).step .silent ()).2.1 :=
  have hm : Machine.twoOnes.validate = .ok () := rfl
  have hi : Machine.twoOnes.validateTape "_1" = .ok () := rfl
  have he := .step .silent () .start
  ⟨hm, hi, he, rfl, staysDeclared_of_validate _ _ 1 _ hm hi he⟩

end Execution

end TapeMachine
