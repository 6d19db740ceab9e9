import Mathlib
import TapeMachine.Proofs.Lockstep
import TapeMachine.Proofs.Machine.Build
import TapeMachine.Proofs.Tape.Extent
/-!
# Labels are opaque

What states and symbols are called makes no difference to a run. A description with other names in
place of its own, if it can be built at all, gives a machine that does the same under these names:
`runsRelabeled_of_build`. Nothing is asked of the names but that different things keep different ones,
so the new blank may be a symbol that was stored before, and the other way round.
-/

namespace TapeMachine

/-- New names for states and symbols, different ones for different things. -/
structure Relabeling where
  state : State ↪ State
  symbol : Symbol ↪ Symbol

/-! ## What is relabelled -/

section Definitions

variable (r : Relabeling)

def Key.relabel (key : Key) : Key := ⟨r.state key.state, r.symbol key.symbol⟩

def Transition.relabel (t : Transition) : Transition :=
  ⟨r.state t.next, r.symbol t.write, t.direction⟩

/-- The text with a new name for each of its symbols. -/
def Relabeling.text (text : String) : String := String.ofList (text.toList.map r.symbol)

/-- The text of the relabelled key. What is no key stays as it is. -/
def Relabeling.keyText (text : String) : String :=
  match Key.parse text with
  | .ok key => (key.relabel r).format
  | .error _ => text

def Relabeling.entry (entry : Entry) : Entry :=
  (r.keyText entry.1, ⟨r.state entry.2.next, r.text entry.2.write, entry.2.direction⟩)

/-- The description with new names in all places. -/
def Description.relabel (d : Description) : Description where
  name := d.name
  states := d.states.map r.state
  alphabet := d.alphabet.map r.text
  blank := r.text d.blank
  transitions := d.transitions.map r.entry
  start := r.state d.start
  halt := r.state d.halt

/-- The tape with another blank and other symbols in its cells. -/
def Tape.relabel (t : Tape) : Tape where
  blank := r.symbol t.blank
  cells := t.cells.map fun _ s => r.symbol s
  cells_ne_blank := by
    intro p h
    rw [Std.ExtTreeMap.getElem?_map, Option.map_eq_some_iff] at h
    obtain ⟨s, hs, heq⟩ := h
    exact t.cells_ne_blank p (r.symbol.injective heq ▸ hs)

def Outcome.relabel (o : Outcome) : Outcome :=
  ⟨o.tape.relabel r, o.steps, r.state o.state, o.head, o.halt.map r.state r.symbol⟩

def TraceEvent.relabel (event : TraceEvent) : TraceEvent :=
  ⟨event.step, r.state event.state, event.head, r.symbol event.read, r.symbol event.write,
    event.direction, r.state event.next⟩

end Definitions

variable {r : Relabeling} {d : Description} {m m' : Machine}

/-! ## Tapes -/

namespace Tape

@[simp] theorem blank_relabel (t : Tape) : (t.relabel r).blank = r.symbol t.blank := rfl

@[simp] theorem read_relabel (t : Tape) (p : Position) : (t.relabel r).read p = r.symbol (t.read p) := by
  unfold read relabel
  rw [Std.ExtTreeMap.getElem?_map]
  cases t.cells[p]? <;> rfl

/-- A write of the new blank clears a cell just as a write of the old one did. -/
theorem relabel_write (t : Tape) (p : Position) (s : Symbol) :
    (t.write p s).relabel r = (t.relabel r).write p (r.symbol s) := by
  refine ext_read (by simp) fun q => ?_
  rw [read_relabel, read_write, read_write, read_relabel]
  split <;> rfl

theorem isSet_relabel (t : Tape) (p : Position) : (t.relabel r).isSet p ↔ t.isSet p := by
  simp [isSet_iff]

theorem render_relabel (t : Tape) :
    (t.relabel r).render.toList = t.render.toList.map r.symbol := by
  unfold render
  rw [bounds?_congr t.isSet_relabel]
  cases t.bounds? with
  | none => rfl
  | some bounds => simp [window]

end Tape

/-! ## Machines -/

theorem Key.relabel_injective : Function.Injective (Key.relabel r) := by
  rintro ⟨state, symbol⟩ ⟨state', symbol'⟩ h
  simpa [relabel] using h

theorem Relabeling.text_singleton (s : Symbol) :
    r.text (String.singleton s) = String.singleton (r.symbol s) := by
  simp [text]

theorem Relabeling.entry_of_defines {entry : Entry} {key : Key} {t : Transition}
    (h : Defines entry key t) :
    r.entry entry = ((key.relabel r).format, (t.relabel r).toInstruction) := by
  obtain ⟨hr, rfl⟩ := h
  simp only [entry, keyText, Key.parse_format hr, Transition.toInstruction, text_singleton,
    Transition.relabel]

/-- The second machine is the first one under new names, as far as runs are concerned. -/
structure Machine.Relabels (r : Relabeling) (m m' : Machine) : Prop where
  start : m'.start = r.state m.start
  halt : m'.halt = r.state m.halt
  transition? : ∀ state symbol, m'.transition? (r.state state) (r.symbol symbol) =
    (m.transition? state symbol).map (Transition.relabel r)

theorem Machine.relabels_of_build (h : d.build = .ok m) (h' : (d.relabel r).build = .ok m') :
    m.Relabels r m' := by
  obtain ⟨hd, hc, hh⟩ := Description.build_eq_ok_iff.1 h
  obtain ⟨hd', hc', hh'⟩ := Description.build_eq_ok_iff.1 h'
  have hstart : d.start = m.start := congrArg Description.start hd
  have hhalt : d.halt = m.halt := congrArg Description.halt hd
  refine ⟨?_, ?_, fun state symbol => ?_⟩
  · rw [← hstart]
    exact (congrArg Description.start hd').symm
  · rw [← hhalt]
    exact (congrArg Description.halt hd').symm
  ext t'
  simp only [Option.map_eq_some_iff, Machine.transition?, hh.lookup_iff_defines hc, hh'.lookup]
  constructor
  · intro hmem
    obtain ⟨entry, hentry, heq⟩ := List.mem_map.1 hmem
    obtain ⟨key, t, hdef⟩ := hc.defines entry hentry
    rw [Relabeling.entry_of_defines hdef] at heq
    obtain ⟨hformat, ht⟩ := Prod.mk.inj heq
    have hkey : key.relabel r = Key.relabel r ⟨state, symbol⟩ := Key.format_injective hformat
    have hkey : key = ⟨state, symbol⟩ := Key.relabel_injective hkey
    have ht : t.relabel r = t' := toInstruction_injective ht
    exact ⟨t, ⟨entry, hentry, hkey ▸ hdef⟩, ht⟩
  · rintro ⟨t, ⟨entry, hentry, hdef⟩, rfl⟩
    refine List.mem_map.2 ⟨entry, hentry, ?_⟩
    rw [Relabeling.entry_of_defines hdef]
    rfl

/-! ## Runs -/

namespace Execution

variable {e e' : Execution} {budget : StepCount}

/-- The second execution is that of the second machine at the same point under new names. -/
structure Relabeled (r : Relabeling) (m m' : Machine) (e e' : Execution) : Prop where
  machine : e.machine = m
  machine' : e'.machine = m'
  tape : e'.tape = e.tape.relabel r
  head : e'.head = e.head
  state : e'.state = r.state e.state
  steps : e'.steps = e.steps

namespace Relabeled

theorem symbol (h : Relabeled r m m' e e') : e'.symbol = r.symbol e.symbol := by
  rw [Execution.symbol, Execution.symbol, h.tape, h.head, Tape.read_relabel]

theorem transition? (hm : m.Relabels r m') (h : Relabeled r m m' e e') :
    e'.transition? = e.transition?.map (Transition.relabel r) := by
  rw [Execution.transition?, Execution.transition?, h.machine, h.machine', h.state, h.symbol,
    hm.transition?]

theorem apply (h : Relabeled r m m' e e') (t : Transition) :
    Relabeled r m m' (e.apply t) (e'.apply (t.relabel r)) where
  machine := h.machine
  machine' := h.machine'
  tape := by
    rw [Execution.apply, Execution.apply, h.tape, h.head, Tape.relabel_write]
    rfl
  head := by
    rw [Execution.apply, Execution.apply, h.head]
    rfl
  state := rfl
  steps := by rw [Execution.apply, Execution.apply, h.steps]

theorem event (h : Relabeled r m m' e e') (t : Transition) :
    e'.event (t.relabel r) = (e.event t).relabel r := by
  rw [Execution.event, Execution.event, h.steps, h.state, h.head, h.symbol]
  rfl

theorem translation (hm : m.Relabels r m') : Translation r.state r.symbol (Transition.relabel r)
    (TraceEvent.relabel r) (Relabeled r m m') where
  steps h := h.steps
  state h := h.state
  symbol h := h.symbol
  halted h := by rw [h.state, h.machine, h.machine', hm.halt, r.state.injective.eq_iff]
  transition? h := h.transition? hm
  event t h := h.event t
  apply t h := h.apply t

end Relabeled

/-- The run of the second machine on the relabelled tape is that of the first under new names, from
its outcome to what is recorded and what is rendered. -/
structure RunsRelabeled (r : Relabeling) (m m' : Machine) (t : Tape) (budget : StepCount) : Prop where
  outcome : m'.run (t.relabel r) budget = (m.run t budget).relabel r
  record : (m'.execute (t.relabel r)).record budget =
    ((m.execute t).record budget).map (TraceEvent.relabel r)
  rendered : (m'.run (t.relabel r) budget).rendered.toList =
    (m.run t budget).rendered.toList.map r.symbol

/-- Machines that are built from a description and from the same one under new names run alike but
for the names. -/
theorem runsRelabeled_of_build (r : Relabeling) (d : Description) (m m' : Machine)
    (h : d.build = .ok m) (h' : (d.relabel r).build = .ok m') (t : Tape) (budget : StepCount) :
    RunsRelabeled r m m' t budget := by
  have hm : m.Relabels r m' := Machine.relabels_of_build h h'
  have hstart : Relabeled r m m' (m.execute t) (m'.execute (t.relabel r)) :=
    ⟨rfl, rfl, rfl, rfl, hm.start, rfl⟩
  have hlock := (Relabeled.translation hm).lockstep budget
  obtain ⟨n, halt, hs⟩ := exists_stopsAfter budget (m.execute t)
  obtain ⟨hlast, hs', -⟩ := hlock.stopsAfter hstart hs
  have houtcome : m'.run (t.relabel r) budget = (m.run t budget).relabel r := by
    rw [Machine.run, Machine.run, run_fst .silent () hs, run_fst .silent () hs', outcome, outcome,
      hlast.tape, hlast.steps, hlast.state, hlast.head]
    rfl
  refine ⟨houtcome, hlock.record hstart, ?_⟩
  rw [houtcome]
  exact Tape.render_relabel _

end Execution

/-- New names under which the blank and the other symbol of `backAndForth` change places. -/
def Relabeling.exchange : Relabeling where
  state := ⟨fun state => "q" ++ state, fun _ _ h => by simpa using h⟩
  symbol := (Equiv.swap '_' '0').toEmbedding

/-- What `backAndForth` is under these names. -/
def Machine.forthAndBack : Machine where
  name := none
  states := ["qa", "qa!"]
  alphabet := ['_']
  blank := '0'
  table := Table.empty
    |>.insert ⟨"qa", '_'⟩ ⟨"qa!", '_', .right⟩
    |>.insert ⟨"qa", '0'⟩ ⟨"qh", '_', .stay⟩
    |>.insert ⟨"qa!", '0'⟩ ⟨"qa", '0', .left⟩
  start := "qa"
  halt := "qh"

theorem Execution.runsRelabeled_of_build_backAndForth :
    Description.backAndForth.build = .ok .backAndForth ∧
      (Description.backAndForth.relabel .exchange).build = .ok .forthAndBack ∧
      RunsRelabeled .exchange .backAndForth .forthAndBack (.ofString "0_1" '1') 3 :=
  have h := Description.build_backAndForth
  have h' : (Description.backAndForth.relabel .exchange).build = .ok .forthAndBack :=
    Description.build_of_rules [
      (⟨"qa", '_'⟩, ⟨"qa!", '_', .right⟩),
      (⟨"qa", '0'⟩, ⟨"qh", '_', .stay⟩),
      (⟨"qa!", '0'⟩, ⟨"qa", '0', .left⟩)] (by decide) (by decide) rfl
      ((List.Perm.swap _ _ _).cons _) rfl
  ⟨h, h', runsRelabeled_of_build _ _ _ _ h h' _ 3⟩

end TapeMachine
