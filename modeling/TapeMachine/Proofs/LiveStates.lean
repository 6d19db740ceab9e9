import Mathlib
import TapeMachine.Proofs.Record
import TapeMachine.Proofs.Validation.Reachability
/-!
# Only live states matter

A state is live if transitions lead to it without leaving the halt state on the way. A run is never
in another one, so nothing but the transitions out of live states has a say in it:
`runAlike_of_sameLive`. What is reported as unreachable is not live, and a machine whose transitions
out of those states are gone (`Machine.pruned`) runs as before and has the same report.
-/

namespace TapeMachine

/-! ## Live states -/

namespace Machine

variable {m m' : Machine} {state : State}

/-- Transitions that leave states other than the halt state lead from the start to the state. -/
inductive Live (m : Machine) : State → Prop
  | start : Live m m.start
  | next {state : State} {symbol : Symbol} {t : Transition} :
      Live m state → state ≠ m.halt → m.transition? state symbol = some t → Live m t.next

theorem Live.reaches (h : m.Live state) : m.Reaches state := by
  induction h with
  | start => exact .refl
  | @next state symbol t _ _ ht ih => exact ih.tail ⟨symbol, t, ht, rfl⟩

theorem Live.not_mem_unreachableStates (h : m.Live state) : state ∉ m.unreachableStates :=
  fun hu => (mem_unreachableStates.1 hu).2 h.reaches

/-- The second machine begins and ends in the same states as the first and has the same transitions
out of states that are live in the first. Nothing is asked of what else it has. -/
structure SameLive (m m' : Machine) : Prop where
  start : m'.start = m.start
  halt : m'.halt = m.halt
  transition? : ∀ state, m.Live state → state ≠ m.halt → ∀ symbol,
    m'.transition? state symbol = m.transition? state symbol

end Machine

/-! ## Two machines side by side -/

namespace Execution

variable {m m' : Machine} {e : Execution} {t : Transition} {halt : Halt} {budget : StepCount}
  {n : Nat}

/-- The execution at the same point with another machine. -/
def withMachine (e : Execution) (m : Machine) : Execution := { e with machine := m }

/-- The execution is one of the machine's and in a live state. -/
structure IsLive (m : Machine) (e : Execution) : Prop where
  machine : e.machine = m
  state : m.Live e.state

theorem isLive_execute (m : Machine) (tape : Tape) : IsLive m (m.execute tape) := ⟨rfl, .start⟩

theorem IsLive.apply (h : IsLive m e) (hu : e.upcoming = .ok t) : IsLive m (e.apply t) := by
  obtain ⟨rfl, hl⟩ := h
  obtain ⟨hne, ht⟩ := upcoming_eq_ok_iff.1 hu
  exact ⟨rfl, .next hl hne ht⟩

theorem IsLive.after (h : IsLive m e) (n : Nat) : IsLive m (e.after n) :=
  inv_after (IsLive m) h (fun _ _ => IsLive.apply) n

variable (hm : m.SameLive m')
include hm

theorem isHalted_withMachine (h : IsLive m e) : (e.withMachine m').isHalted = e.isHalted := by
  rw [isHalted, isHalted, h.machine, ← hm.halt]
  rfl

theorem upcoming_withMachine (h : IsLive m e) : (e.withMachine m').upcoming = e.upcoming := by
  have hh := isHalted_withMachine hm h
  by_cases hhalt : e.isHalted
  · rw [upcoming, upcoming, if_pos hhalt, if_pos (hh.trans hhalt)]
  · -- the table is only asked about live states that do not halt
    obtain ⟨rfl, hl⟩ := h
    have hne : e.state ≠ e.machine.halt := by simpa [isHalted] using hhalt
    have ht : (e.withMachine m').transition? = e.transition? := hm.transition? _ hl hne _
    rw [upcoming, upcoming, hh, ht]
    rfl

theorem next_withMachine (h : IsLive m e) :
    (e.withMachine m').next = e.next.withMachine m' := by
  have hu := upcoming_withMachine hm h
  cases hn : e.upcoming with
  | ok t =>
    rw [next_of_ok hn, next_of_ok (hu.trans hn)]
    rfl
  | error halt => rw [next_of_error hn, next_of_error (hu.trans hn)]

theorem after_withMachine (h : IsLive m e) (n : Nat) :
    (e.withMachine m').after n = (e.after n).withMachine m' := by
  induction n with
  | zero => rfl
  | succ n ih => rw [after_succ, after_succ, ih, next_withMachine hm (h.after n)]

theorem stop?_withMachine (h : IsLive m e) : (e.withMachine m').stop? budget = e.stop? budget := by
  rw [stop?, stop?, upcoming_withMachine hm h, isHalted_withMachine hm h]
  rfl

theorem events_withMachine (h : IsLive m e) (n : Nat) :
    (e.withMachine m').events n = e.events n := by
  unfold events
  refine List.filterMap_congr fun i _ => ?_
  rw [after_withMachine hm h, event?, event?, upcoming_withMachine hm (h.after i)]
  rfl

theorem StopsAfter.withMachine (hs : e.StopsAfter budget n halt) (h : IsLive m e) :
    (e.withMachine m').StopsAfter budget n halt := by
  constructor
  · intro i hi
    rw [after_withMachine hm h, stop?_withMachine hm (h.after i)]
    exact hs.moves i hi
  · rw [after_withMachine hm h, stop?_withMachine hm (h.after n)]
    exact hs.stops

/-- Neither the outcome nor anything that an observer is told depends on which of the two runs. -/
theorem run_withMachine {σ : Type} (observer : Observer σ) (memory : σ) (h : IsLive m e) :
    (e.withMachine m').run observer budget memory = e.run observer budget memory := by
  obtain ⟨n, halt, hs⟩ := exists_stopsAfter budget e
  rw [run_eq observer memory hs, run_eq observer memory (hs.withMachine hm h),
    after_withMachine hm h, events_withMachine hm h]
  cases halt <;> rfl

theorem execute_eq_withMachine (tape : Tape) :
    m'.execute tape = (m.execute tape).withMachine m' := by
  rw [Machine.execute, Machine.execute, withMachine, hm.start]

end Execution

/-! ## Pruning -/

/-- The table without the rows of the given states. -/
def Table.withoutRows (t : Table) (states : List State) : Table :=
  ⟨t.rows.filter fun state _ => state ∉ states⟩

theorem Table.lookup_withoutRows (t : Table) (states : List State) (state : State)
    (symbol : Symbol) :
    (t.withoutRows states).lookup state symbol =
      if state ∈ states then none else t.lookup state symbol := by
  unfold lookup row withoutRows
  rw [Std.ExtTreeMap.getElem?_filter']
  by_cases h : state ∈ states
  · simp [h]
  · cases t.rows[state]? <;> simp [h, Option.filter]

namespace Machine

variable {m : Machine} {state : State}

/-- The machine without any transition out of the states that are reported as unreachable. -/
def pruned (m : Machine) : Machine := { m with table := m.table.withoutRows m.unreachableStates }

theorem transition?_pruned (m : Machine) (state : State) (symbol : Symbol) :
    m.pruned.transition? state symbol =
      if state ∈ m.unreachableStates then none else m.transition? state symbol :=
  m.table.lookup_withoutRows _ state symbol

theorem sameLive_pruned (m : Machine) : m.SameLive m.pruned where
  start := rfl
  halt := rfl
  transition? state hl _ symbol := by
    rw [transition?_pruned, if_neg hl.not_mem_unreachableStates]

/-- No path that starts at the start uses a transition that pruning takes away. -/
theorem reaches_pruned : m.pruned.Reaches state ↔ m.Reaches state := by
  constructor
  · intro h
    refine Relation.ReflTransGen.mono ?_ _ _ h
    rintro a b ⟨symbol, t, ht, hb⟩
    rw [transition?_pruned] at ht
    split at ht
    · cases ht
    · exact ⟨symbol, t, ht, hb⟩
  · intro h
    induction h with
    | refl => exact .refl
    | @tail a b ha hedge ih =>
      obtain ⟨symbol, t, ht, hb⟩ := hedge
      have hkept : a ∉ m.unreachableStates := fun hu => (mem_unreachableStates.1 hu).2 ha
      refine ih.tail ⟨symbol, t, ?_, hb⟩
      rw [transition?_pruned, if_neg hkept, ht]

theorem unreachableStates_pruned (m : Machine) :
    m.pruned.unreachableStates = m.unreachableStates := by
  have h : Validation.reachable m.pruned.table.rules m.pruned.start =
      Validation.reachable m.table.rules m.start := by
    refine Std.ExtTreeSet.ext_mem fun state => ?_
    rw [mem_reachable, mem_reachable, reaches_pruned]
  rw [unreachableStates, unreachableStates, Validation.unreachable, Validation.unreachable, h]
  rfl

end Machine

/-! ## Runs -/

namespace Execution

variable {m m' : Machine} {tape : Tape}

/-- On this tape the machines cannot be told apart, by whatever observer, and neither of them is
ever in a state that is not live in the first. -/
structure RunAlike (m m' : Machine) (tape : Tape) : Prop where
  run : ∀ (σ : Type) (observer : Observer σ) (memory : σ) (budget : StepCount),
    (m'.execute tape).run observer budget memory = (m.execute tape).run observer budget memory
  stepped : ∀ n e e', Stepped (m.execute tape) n e → Stepped (m'.execute tape) n e' →
    e' = e.withMachine m' ∧ m.Live e.state
  outcome : ∀ budget, m.Live (m.run tape budget).state
  record : ∀ budget, ∀ event ∈ (m.execute tape).record budget,
    m.Live event.state ∧ m.Live event.next

theorem runAlike (hm : m.SameLive m') (tape : Tape) : RunAlike m m' tape where
  run σ observer memory budget := by
    rw [execute_eq_withMachine hm]
    exact run_withMachine hm observer memory (isLive_execute m tape)
  stepped n e e' he he' := by
    cases stepped_iff.1 he
    cases stepped_iff.1 he'
    have hl := isLive_execute m tape
    rw [execute_eq_withMachine hm, after_withMachine hm hl]
    exact ⟨rfl, (hl.after n).state⟩
  outcome budget := by
    obtain ⟨n, halt, hs⟩ := exists_stopsAfter budget (m.execute tape)
    rw [Machine.run, run_fst .silent () hs]
    exact ((isLive_execute m tape).after n).state
  record budget event hev := by
    obtain ⟨n, halt, hs⟩ := exists_stopsAfter budget (m.execute tape)
    rw [record_eq hs] at hev
    obtain ⟨i, -, t, ht, rfl⟩ := hs.exists_of_mem_events hev
    have hl := (isLive_execute m tape).after i
    exact ⟨hl.state, (hl.apply ht).state⟩

/-- Machines with the same live transitions run alike on every tape. No state that is reported as
unreachable is live, and without the transitions out of these a machine runs alike, too, and has the
same ones reported. -/
theorem runAlike_of_sameLive (m m' : Machine) (hm : m.SameLive m') :
    (∀ tape, RunAlike m m' tape) ∧ (∀ state ∈ m.unreachableStates, ¬ m.Live state) ∧
      (∀ tape, RunAlike m m.pruned tape) ∧ m.pruned.unreachableStates = m.unreachableStates :=
  ⟨runAlike hm, fun _ hu hl => hl.not_mem_unreachableStates hu, runAlike m.sameLive_pruned,
    m.unreachableStates_pruned⟩

end Execution

/-- A machine that runs like `twoOnes`, but has a transition out of its halt state and one out of a
state that is never entered. -/
def Machine.twoOnesAndMore : Machine where
  name := some "two ones"
  states := ["first", "lost"]
  alphabet := []
  blank := ' '
  table := Machine.twoOnes.table
    |>.insert ⟨"done", '1'⟩ ⟨"first", '0', .left⟩
    |>.insert ⟨"lost", '_'⟩ ⟨"second", '_', .right⟩
  start := "first"
  halt := "done"

theorem Execution.runAlike_of_sameLive_twoOnes :
    Machine.twoOnesAndMore.unreachableStates = ["lost"] ∧
      Machine.twoOnesAndMore.SameLive .twoOnes ∧
      ∀ tape, RunAlike Machine.twoOnesAndMore .twoOnes tape := by
  have hu : Machine.twoOnesAndMore.unreachableStates = ["lost"] := by decide +kernel
  have hm : Machine.twoOnesAndMore.SameLive .twoOnes := by
    refine ⟨rfl, rfl, fun state hl hne symbol => ?_⟩
    have hlost : state ≠ "lost" := by
      rintro rfl
      exact hl.not_mem_unreachableStates (by simp [hu])
    have hdone : state ≠ "done" := hne
    rw [Machine.transition?, Machine.transition?, Machine.twoOnesAndMore, Table.lookup_insert,
      Table.lookup_insert, if_neg fun h => hlost h.1.symm, if_neg fun h => hdone h.1.symm]
  exact ⟨hu, hm, (runAlike_of_sameLive _ _ hm).1⟩

end TapeMachine
