import Mathlib
import TapeMachine.Proofs.Record
/-!
# What the journal has after a run

The journal of a run and its trace are taken at different places and tell the same story:
`sameStory_run`. The lines of the journal are those that the trace and the outcome ask for, in the
order of the steps, and the trace can be read off them again.
-/

namespace TapeMachine

/-! ## Lines -/

namespace Journal

/-- At its finest level a journal leaves nothing out. -/
theorem Entry.isAtLeast_trace (entry : Entry) : entry.isAtLeast .trace := by
  cases entry <;> rfl

/-- An entry as it is delivered. -/
structure Line where
  level : Level
  source : String
  message : String
  fields : List (String × String)
  deriving DecidableEq

def Entry.line (entry : Entry) : Line := ⟨entry.level, entry.source, entry.message, entry.fields⟩

namespace Line

def started (state : State) (budget : StepCount) : Line :=
  ⟨.debug, "utm::machine", "run started",
    [("state", state), ("max_steps", toString budget.toNat)]⟩

def step (event : TraceEvent) : Line :=
  ⟨.trace, "utm::machine", "applying transition", [
    ("step", toString event.step.toNat),
    ("state", event.state),
    ("head", toString event.head.toInt),
    ("read", String.singleton event.read),
    ("write", String.singleton event.write),
    ("direction", String.singleton event.direction.letter),
    ("next", event.next)]⟩

/-- There is such a line only if the run was at a loss. -/
def stuck? (o : Outcome) : Option Line :=
  match o.halt with
  | .undefinedTransition _ symbol => some ⟨.debug, "utm::machine", "no transition defined", [
      ("state", o.state),
      ("symbol", String.singleton symbol),
      ("head", toString o.head.toInt)]⟩
  | _ => none

def finished (o : Outcome) : Line :=
  ⟨.debug, "utm::machine", "run finished", [
    ("state", o.state),
    ("steps", toString o.steps.toNat),
    ("outcome", o.halt.message)]⟩

/-- The event that a line tells of, read off its fields. -/
def event? (line : Line) : Option TraceEvent :=
  if line.message = "applying transition" then do
    let step ← (← line.fields.lookup "step").toNat?
    let state ← line.fields.lookup "state"
    let head ← (← line.fields.lookup "head").toInt?
    let read ← Symbol.ofString? (← line.fields.lookup "read")
    let write ← Symbol.ofString? (← line.fields.lookup "write")
    let direction ← Direction.ofString? (← line.fields.lookup "direction")
    let next ← line.fields.lookup "next"
    return ⟨.ofNat step, state, .ofInt head, read, write, direction, next⟩
  else none

end Line

/-- The lines of a run that starts in a state, takes the steps that `events` tell of and comes to `o`. -/
def tale (start : State) (budget : StepCount) (events : List TraceEvent) (o : Outcome) : List Line :=
  .started start budget :: (events.map .step ++ (Line.stuck? o).toList ++ [.finished o])

theorem Line.event?_step (event : TraceEvent) : (Line.step event).event? = some event := by
  simp [event?, step, List.lookup]

theorem Line.event?_eq_none {line : Line} (h : line.message ≠ "applying transition") :
    line.event? = none := by
  rw [event?, if_neg h]

theorem Line.event?_stuck? (o : Outcome) : (Line.stuck? o).bind event? = none := by
  unfold stuck?
  split
  · exact event?_eq_none (by simp)
  · rfl

/-- Steps are told of by the lines for steps and by no others. -/
theorem filterMap_event?_tale (start : State) (budget : StepCount) (events : List TraceEvent)
    (o : Outcome) : (tale start budget events o).filterMap Line.event? = events := by
  have hstarted : (Line.started start budget).event? = none :=
    Line.event?_eq_none (by simp [Line.started])
  have hfinished : (Line.finished o).event? = none :=
    Line.event?_eq_none (by simp [Line.finished])
  have hsteps : (events.map Line.step).filterMap Line.event? = events := by
    simp [List.filterMap_map, Line.event?_step]
  have hstuck : (Line.stuck? o).toList.filterMap Line.event? = [] := by
    have h := Line.event?_stuck? o
    cases hs : Line.stuck? o <;> simp_all
  simp [tale, hstarted, hsteps, hstuck, hfinished]

end Journal

/-! ## Observers side by side -/

namespace Execution

variable {e : Execution} {halt : Halt} {budget : StepCount} {n : Nat}
variable {σ τ : Type} (first : Observer σ) (second : Observer τ) (a : σ) (b : τ)

theorem onEntry_both (entry : Journal.Entry) :
    (first.both second).onEntry entry (a, b) = (first.onEntry entry a, second.onEntry entry b) := rfl

theorem foldl_tell_both (events : List TraceEvent) :
    events.foldl (first.both second).tell (a, b) =
      (events.foldl first.tell a, events.foldl second.tell b) := by
  induction events generalizing a b with
  | nil => rfl
  | cons event events ih => exact ih _ _

theorem announceStop_both :
    e.announceStop (first.both second) halt (a, b) =
      (e.announceStop first halt a, e.announceStop second halt b) := by
  cases halt <;> rfl

/-- Observers that watch a run together see what each of them would see alone. -/
theorem run_both (e : Execution) (budget : StepCount) :
    e.run (first.both second) budget (a, b) =
      ((e.run first budget a).1, (e.run first budget a).2, (e.run second budget b).2) := by
  obtain ⟨n, halt, h⟩ := exists_stopsAfter budget e
  rw [run_eq _ _ h, run_eq first a h, run_eq second b h, onEntry_both, foldl_tell_both,
    announceStop_both]
  rfl

/-! ## The journal -/

theorem onEntry_journal (entry : Journal.Entry) (memory : Array Journal.Entry) :
    (Observer.journal .trace).onEntry entry memory = memory.push entry := by
  simp [Observer.journal, Journal.Entry.isAtLeast_trace]

theorem foldl_tell_journal (memory : Array Journal.Entry) (events : List TraceEvent) :
    events.foldl (Observer.journal .trace).tell memory =
      memory ++ events.map Journal.Entry.applyingTransition := by
  induction events generalizing memory with
  | nil => simp
  | cons event events ih =>
    rw [List.foldl_cons, ih, Observer.tell, onEntry_journal]
    simp [Observer.journal]

/-- Only a run that finds no transition has a line about it, with the state and the head it stopped at. -/
theorem announceStop_journal (hs : e.stop? budget = some halt) (memory : Array Journal.Entry) :
    (e.announceStop (.journal .trace) halt memory).toList.map Journal.Entry.line =
      memory.toList.map Journal.Entry.line ++ (Journal.Line.stuck? (e.outcome halt)).toList := by
  rcases stop?_eq_some_iff.1 hs with ⟨-, rfl⟩ | ⟨-, -, rfl⟩ | ⟨-, -, -, rfl⟩
  · exact (List.append_nil _).symm
  · exact (List.append_nil _).symm
  · rw [announceStop, onEntry_journal, Array.toList_push, List.map_append]
    rfl

theorem journal_eq (h : e.StopsAfter budget n halt) :
    (e.run (.journal .trace) budget #[]).2.toList.map Journal.Entry.line =
      Journal.tale e.state budget (e.events n) ((e.after n).outcome halt) := by
  have hsteps : ((e.events n).map Journal.Entry.applyingTransition).map Journal.Entry.line =
      (e.events n).map Journal.Line.step := List.map_map
  rw [run_eq _ #[] h, onEntry_journal, onEntry_journal, Array.toList_push, List.map_append,
    announceStop_journal h.stops, foldl_tell_journal, Array.toList_appendList, List.map_append, hsteps]
  rfl

/-- What a recorder and the journal at its finest level have after a run that comes to `o`. -/
structure SameStory (e : Execution) (budget : StepCount) (o : Outcome) (events : List TraceEvent)
    (lines : List Journal.Line) : Prop where
  outcome : o = (e.run .silent budget ()).1
  recorded : events = e.record budget
  told : lines = Journal.tale e.state budget events o
  /-- The trace can be rebuilt from the journal alone. -/
  rebuilt : lines.filterMap Journal.Line.event? = events
  /-- The journal can be retold from the trace and the outcome, which say where the run started. -/
  retold : lines = Journal.tale ((events.head?.map (·.state)).getD o.state) budget events o

theorem StopsAfter.start_events (h : e.StopsAfter budget n halt) :
    ((e.events n).head?.map (·.state)).getD (e.after n).state = e.state := by
  have hrecord := h.isRecord
  cases hev : e.events n with
  | nil => exact (hrecord.idle hev).1
  | cons event events =>
    simp only [hev] at hrecord
    exact (hrecord.first (by simp)).1

/-- The journal and the trace of a run tell the same story. -/
theorem sameStory_run (e : Execution) (budget : StepCount) :
    let (o, trace, entries) := e.run (.both .recorder (.journal .trace)) budget (#[], #[])
    SameStory e budget o trace.toList (entries.toList.map Journal.Entry.line) := by
  obtain ⟨n, halt, h⟩ := exists_stopsAfter budget e
  have hlines := journal_eq h
  have hrecord : (e.run .recorder budget #[]).2.toList = e.events n := record_eq h
  rw [run_both, run_fst .recorder #[] h]
  simp only [hlines, hrecord]
  exact {
    outcome := (run_fst .silent () h).symm
    recorded := (record_eq h).symm
    told := rfl
    rebuilt := Journal.filterMap_event?_tale _ _ _ _
    retold := by rw [outcome, h.start_events] }

end Execution

end TapeMachine
