import TapeMachine.Machine
import TapeMachine.Observer
/-!
# Executions

An execution is a machine in the middle of a run: tape, head, state and the steps taken. It can
take one step, or run until it halts, finds no transition or has taken as many steps as its budget
allows. The halt state comes before the budget and the budget before the table.
-/
namespace TapeMachine

variable {σ : Type}

/-- A machine in the middle of a run. -/
structure Execution where
  machine : Machine
  tape : Tape
  head : Position
  state : State
  steps : StepCount
  deriving DecidableEq

/-- What a single step comes to. -/
inductive Step where
  | moved
  | stopped (halt : Halt)
  deriving DecidableEq, Repr

/-- What a run comes to. -/
structure Outcome where
  tape : Tape
  steps : StepCount
  state : State
  head : Position
  halt : Halt
  deriving DecidableEq

namespace Outcome

/-- Whether the run reached the halt state. -/
def isHalted (o : Outcome) : Bool := o.halt = .halted

/-- The text on the final tape. -/
def rendered (o : Outcome) : String := o.tape.render

end Outcome

/-- The execution of a machine on a tape before its first step. -/
def Machine.execute (m : Machine) (tape : Tape) : Execution := ⟨m, tape, 0, m.start, 0⟩

namespace Execution

/-- Whether the machine is in its halt state. -/
def isHalted (e : Execution) : Bool := e.state = e.machine.halt

/-- The symbol under the head. -/
def symbol (e : Execution) : Symbol := e.tape.read e.head

/-- The transition for the state and the symbol under the head. -/
def transition? (e : Execution) : Option Transition := e.machine.transition? e.state e.symbol

/-- The transition that comes next, or why there is none. -/
def upcoming (e : Execution) : Except Halt Transition :=
  if e.isHalted then .error .halted
  else match e.transition? with
    | some t => .ok t
    | none => .error (.undefinedTransition e.state e.symbol)

/-- Writes, moves, changes the state and counts the step. -/
def apply (e : Execution) (t : Transition) : Execution :=
  { e with
    tape := e.tape.write e.head t.write
    head := e.head + t.direction.offset
    state := t.next
    steps := e.steps + 1 }

/-- The step that `t` is about to make. -/
def event (e : Execution) (t : Transition) : TraceEvent :=
  ⟨e.steps, e.state, e.head, e.symbol, t.write, t.direction, t.next⟩

variable (observer : Observer σ)

/-- Tells an observer that `t` is about to be applied. -/
def announce (e : Execution) (t : Transition) (memory : σ) : σ :=
  observer.onStep (e.event t) (observer.onEntry (.applyingTransition (e.event t)) memory)

/-- Tells an observer that there is no next step. -/
def announceStop (e : Execution) (halt : Halt) (memory : σ) : σ :=
  match halt with
  | .undefinedTransition state symbol => observer.onEntry (.noTransition state symbol e.head) memory
  | _ => memory

/-- Takes one step if there is one to take. -/
def step (e : Execution) (memory : σ) : Step × Execution × σ :=
  match e.upcoming with
  | .ok t => (.moved, e.apply t, e.announce observer t memory)
  | .error halt => (.stopped halt, e, e.announceStop observer halt memory)

/-- Takes steps until the run stops, and tells why. -/
def advance (budget : StepCount) (e : Execution) (memory : σ) : Halt × Execution × σ :=
  if e.isHalted then (.halted, e, memory)
  else if _h : budget ≤ e.steps then (.budgetExceeded, e, memory)
  else match e.upcoming with
    | .ok t => advance budget (e.apply t) (e.announce observer t memory)
    | .error halt => (halt, e, e.announceStop observer halt memory)
termination_by budget.toNat - e.steps.toNat
decreasing_by
  have : e.steps.toNat < budget.toNat := by
    simpa [UInt64.le_iff_toNat_le] using _h
  have : budget.toNat < 2 ^ 64 := budget.toNat_lt
  simp only [apply, UInt64.toNat_add, UInt64.reduceToNat]
  omega

/-- Takes up to `n` steps without an observer, and no more once the machine has stopped. -/
def takeSteps : Nat → Execution → Step × Execution
  | 0, e => (.moved, e)
  | n + 1, e =>
    match e.upcoming with
    | .ok t => takeSteps n (e.apply t)
    | .error halt => (.stopped halt, e)

/-- What the execution comes to if it stops now. -/
def outcome (e : Execution) (halt : Halt) : Outcome := ⟨e.tape, e.steps, e.state, e.head, halt⟩

/-- Runs until the machine halts, finds no transition or has taken `budget` steps, those before
this run included. -/
def run (budget : StepCount) (e : Execution) (memory : σ) : Outcome × σ :=
  let started := observer.onEntry (.runStarted e.state budget) memory
  let (halt, last, memory) := e.advance observer budget started
  (last.outcome halt, observer.onEntry (.runFinished last.state last.steps halt) memory)

end Execution

namespace Machine

variable (m : Machine)

/-- Runs the machine on a tape. -/
def run (tape : Tape) (budget : StepCount) : Outcome :=
  ((m.execute tape).run .silent budget ()).1

/-- How many steps a run may take if nothing is said about it. -/
def defaultBudget : StepCount := 10000

end Machine

end TapeMachine
