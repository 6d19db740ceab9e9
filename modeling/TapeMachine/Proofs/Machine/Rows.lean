import Mathlib
import TapeMachine.Library
import TapeMachine.Proofs.Machine.Build
import TapeMachine.Proofs.Trajectory
import TapeMachine.Validation
/-!
# Rows of tables

However a machine is made, no row of its table is empty, and the states and symbols in it are those
that stand in keys: `Table.IsKeyed`. So machines with the same transitions are equal, and no machine
goes on from a state or a symbol that cannot stand in a key, though nothing keeps it from getting
there: `wellKept_of_made`.
-/

namespace TapeMachine

/-! ## Tables -/

namespace Table

variable {table : Table} {entries : List Entry} {state : State} {symbol : Symbol} {row : Row}
  {t : Transition}

/-- No row is empty, each is that of a state that stands in keys, and none has a transition for the
one symbol that does not. -/
structure IsKeyed (table : Table) : Prop where
  noEmptyRow : ∀ (state : State) (row : Row), table.rows[state]? = some row → row ≠ ∅
  state : ∀ (state : State) (row : Row), table.rows[state]? = some row →
    state ≠ "" ∧ ':' ∉ state.toList
  symbol : ∀ (state : State) (row : Row), table.rows[state]? = some row → row[':']? = none

theorem lookup_of_row (h : table.rows[state]? = some row) (symbol : Symbol) :
    table.lookup state symbol = row[symbol]? := by
  simp [lookup, Table.row, h]

theorem NoEmptyRow.exists_lookup (hn : table.NoEmptyRow) (h : table.rows[state]? = some row) :
    ∃ symbol t, table.lookup state symbol = some t := by
  by_contra! hnone
  refine hn state row h (Std.ExtTreeMap.ext_getElem? fun symbol => ?_)
  rw [← lookup_of_row h, Option.eq_none_iff_forall_ne_some.2 (hnone symbol)]
  simp

/-- What is found in a table is found at a key that can be read. -/
theorem Holds.isReadable (hh : table.Holds entries) (hc : Consistent entries)
    (hl : table.lookup state symbol = some t) : Key.IsReadable ⟨state, symbol⟩ := by
  obtain ⟨entry, -, hr, -⟩ := (hh.lookup_iff_defines hc).1 hl
  exact hr

theorem Holds.isKeyed (hh : table.Holds entries) (hc : Consistent entries) : table.IsKeyed where
  noEmptyRow := hh.noEmptyRow
  state state row hrow := by
    -- a state is read with the key of any transition in its row
    obtain ⟨symbol, t, hl⟩ := hh.noEmptyRow.exists_lookup hrow
    obtain ⟨hempty, hstate, -⟩ := hh.isReadable hc hl
    exact ⟨hempty, hstate⟩
  symbol state row hrow := by
    rw [← lookup_of_row hrow, Option.eq_none_iff_forall_ne_some]
    intro t hl
    obtain ⟨-, -, hsymbol⟩ := hh.isReadable hc hl
    exact hsymbol rfl

theorem IsKeyed.lookup_eq_none (h : table.IsKeyed)
    (hkey : state = "" ∨ ':' ∈ state.toList ∨ symbol = ':') : table.lookup state symbol = none := by
  cases hrow : table.rows[state]? with
  | none => simp [lookup, Table.row, hrow]
  | some row =>
    obtain ⟨hempty, hstate⟩ := h.state state row hrow
    rcases hkey with hs | hs | rfl
    · exact absurd hs hempty
    · exact absurd hs hstate
    · rw [lookup_of_row hrow, h.symbol state row hrow]

end Table

/-! ## Making machines -/

theorem Library.exists_build_of_mem_builtins {b : Builtin} (h : b ∈ builtins) :
    ∃ d : Description, d.build = .ok b.machine := by
  obtain ⟨⟨⟨d, sample⟩, index⟩, -, h⟩ := List.mem_filterMap.1 h
  dsimp only at h
  cases hd : d.build with
  | ok m =>
    rw [hd] at h
    cases h
    exact ⟨d, hd⟩
  | error e =>
    rw [hd] at h
    cases h

theorem Library.mem_builtins_of_find {b : Builtin} {name : String} (h : find name = .ok b) :
    b ∈ builtins := by
  unfold find at h
  split at h
  · rename_i hb
    cases h
    exact List.mem_of_find?_eq_some hb
  · cases h

theorem Library.mem_builtins_of_get {b : Builtin} {index : Nat} (h : get index = .ok b) :
    b ∈ builtins := by
  unfold get at h
  split at h
  · rename_i hb
    cases h
    exact List.mem_of_getElem? hb
  · cases h

namespace Machine

variable {m m' : Machine} {text path : String} {source : Files.Source}

/-- The ways to get a machine. -/
inductive Made : Machine → Prop
  | build {m : Machine} (d : Description) : d.build = .ok m → Made m
  | buildStrict {m : Machine} (d : Description) : d.buildStrict = .ok m → Made m
  | ofJson {m : Machine} (text : String) : ofJson text = .ok m → Made m
  | load {m : Machine} (text : String) : load text = .ok m → Made m
  | loadFrom {m : Machine} (source : Files.Source) (path : String) :
      loadFrom source path = .ok m → Made m
  | named {b : Builtin} (name : String) : Library.find name = .ok b → Made b.machine
  | numbered {b : Builtin} (index : Nat) : Library.get index = .ok b → Made b.machine

theorem build_of_buildStrict {d : Description} (h : d.buildStrict = .ok m) : d.build = .ok m := by
  obtain ⟨m', hm, h⟩ := bind_eq_ok_iff.1 h
  obtain ⟨-, -, h⟩ := bind_eq_ok_iff.1 h
  cases pure_eq_ok_iff.1 h
  exact hm

theorem exists_build_of_ofJson (h : ofJson text = .ok m) : ∃ d : Description, d.build = .ok m := by
  obtain ⟨d, -, h⟩ := bind_eq_ok_iff.1 h
  exact ⟨d, h⟩

theorem ofJson_of_load (h : load text = .ok m) : ofJson text = .ok m := by
  unfold load at h
  split at h
  · cases h
  · exact h

theorem exists_load_of_loadFrom (h : loadFrom source path = .ok m) : ∃ text, load text = .ok m := by
  unfold loadFrom at h
  split at h
  · exact ⟨_, h⟩
  · cases h

/-- All of them build a description. -/
theorem Made.exists_build (h : m.Made) : ∃ d : Description, d.build = .ok m := by
  cases h with
  | build d h => exact ⟨d, h⟩
  | buildStrict d h => exact ⟨d, build_of_buildStrict h⟩
  | ofJson text h => exact exists_build_of_ofJson h
  | load text h => exact exists_build_of_ofJson (ofJson_of_load h)
  | loadFrom source path h =>
    obtain ⟨text, h⟩ := exists_load_of_loadFrom h
    exact exists_build_of_ofJson (ofJson_of_load h)
  | named name h => exact Library.exists_build_of_mem_builtins (Library.mem_builtins_of_find h)
  | numbered index h => exact Library.exists_build_of_mem_builtins (Library.mem_builtins_of_get h)

theorem Made.isKeyed (h : m.Made) : m.table.IsKeyed := by
  obtain ⟨d, h⟩ := h.exists_build
  obtain ⟨-, hc, hh⟩ := Description.build_eq_ok_iff.1 h
  exact hh.isKeyed hc

/-! ## Equal machines -/

/-- The machines have all the same parts, and the same transitions are found in them. -/
structure Agrees (m m' : Machine) : Prop where
  name : m.name = m'.name
  states : m.states = m'.states
  alphabet : m.alphabet = m'.alphabet
  blank : m.blank = m'.blank
  start : m.start = m'.start
  halt : m.halt = m'.halt
  transition? : ∀ state symbol, m.transition? state symbol = m'.transition? state symbol

theorem eq_iff_agrees (h : m.Made) (h' : m'.Made) : m = m' ↔ m.Agrees m' := by
  constructor
  · rintro rfl
    exact ⟨rfl, rfl, rfl, rfl, rfl, rfl, fun _ _ => rfl⟩
  · rintro ⟨hname, hstates, halphabet, hblank, hstart, hhalt, ht⟩
    have htable : m.table = m'.table :=
      Table.ext_lookup h.isKeyed.noEmptyRow h'.isKeyed.noEmptyRow ht
    cases m; cases m'
    simp_all

/-! ## Where no key leads -/

/-- Outside the halt state, an execution of the machine in a state or with a symbol that does not
stand in keys finds no transition and stays as it is. An observer is told so, and of no step. -/
def StopsUnkeyed (m : Machine) : Prop :=
  ∀ e : Execution, e.machine = m → e.state ≠ m.halt →
    (e.state = "" ∨ ':' ∈ e.state.toList ∨ e.symbol = ':') →
    ∀ (σ : Type) (observer : Observer σ) (memory : σ), e.step observer memory =
      (.stopped (.undefinedTransition e.state e.symbol), e,
        observer.onEntry (.noTransition e.state e.symbol e.head) memory)

theorem Made.stopsUnkeyed (h : m.Made) : m.StopsUnkeyed := by
  rintro e rfl hne hkey σ observer memory
  have hu : e.upcoming = .error (.undefinedTransition e.state e.symbol) :=
    Execution.upcoming_eq_error_iff.2 (.inr ⟨hne, h.isKeyed.lookup_eq_none hkey, rfl⟩)
  rw [Execution.step, hu]
  rfl

/-- A run of the machine on some tape gets to the state with the symbol under the head, and does not
halt there. -/
def Visits (m : Machine) (state : State) (symbol : Symbol) : Prop :=
  ∃ tape n, ((m.execute tape).after n).state = state ∧
    ((m.execute tape).after n).symbol = symbol ∧ state ≠ m.halt

end Machine

/-- Enters a state and leaves a symbol under the head in its first step. The halt state is longer
than the other two. -/
def Description.visiting (state : State) (symbol : Symbol) : Description where
  name := none
  states := []
  alphabet := []
  blank := "_"
  transitions := [("a:_", ⟨state, String.singleton symbol, .stay⟩)]
  start := "a"
  halt := state ++ "aa"

/-- The machine that it builds. -/
def Machine.visiting (state : State) (symbol : Symbol) : Machine where
  name := none
  states := []
  alphabet := []
  blank := '_'
  table := Table.empty.insert ⟨"a", '_'⟩ ⟨state, symbol, .stay⟩
  start := "a"
  halt := state ++ "aa"

theorem Description.build_visiting (state : State) (symbol : Symbol) :
    (visiting state symbol).build = .ok (.visiting state symbol) := by
  have hd : Defines ("a:_", ⟨state, String.singleton symbol, .stay⟩) ⟨"a", '_'⟩
      ⟨state, symbol, .stay⟩ := ⟨by decide, rfl⟩
  refine build_eq_ok_iff.2 ⟨rfl, ⟨?_, List.nodup_singleton _⟩, ?_⟩
  · intro entry hentry
    rw [List.mem_singleton.1 hentry]
    exact ⟨_, _, hd⟩
  · exact Table.holds_empty.insert (Table.lookup_empty _ _) ⟨state, symbol, .stay⟩

theorem Machine.visits_visiting (state : State) (symbol : Symbol) :
    (visiting state symbol).Visits state symbol := by
  let e : Execution := (visiting state symbol).execute (.empty '_')
  let t : Transition := ⟨state, symbol, .stay⟩
  have hstart : e.state ≠ e.machine.halt := fun h => by
    simpa [e, execute, visiting] using congrArg (·.toList.length) h
  have hhalt : state ≠ e.machine.halt := fun h => by
    simpa [e, execute, visiting] using congrArg (·.toList.length) h
  have hsymbol : e.symbol = '_' := Tape.read_empty _ _
  have hl : e.transition? = some t := by
    rw [Execution.transition?, hsymbol]
    exact (Table.lookup_insert ..).trans (if_pos ⟨rfl, rfl⟩)
  have hafter : e.after 1 = e.apply t :=
    Execution.next_of_ok (Execution.upcoming_eq_ok_iff.2 ⟨hstart, hl⟩)
  refine ⟨.empty '_', 1, ?_, ?_, hhalt⟩
  · exact congrArg Execution.state hafter
  · exact (congrArg Execution.symbol hafter).trans (Tape.read_write_self _ _ _)

namespace Machine

/-- What follows from how tables are kept, for a machine and another one beside it. -/
structure WellKept (m m' : Machine) : Prop where
  isKeyed : m.table.IsKeyed
  eq_iff : m = m' ↔ m.Agrees m'
  stops : m.StopsUnkeyed
  /-- There are executions to stop: a run may get to any state and any symbol. -/
  visits : ∀ state symbol, ∃ visitor : Machine, visitor.Made ∧ visitor.Visits state symbol

theorem wellKept_of_made (m m' : Machine) (h : m.Made) (h' : m'.Made) : WellKept m m' where
  isKeyed := h.isKeyed
  eq_iff := eq_iff_agrees h h'
  stops := h.stopsUnkeyed
  visits state symbol :=
    ⟨visiting state symbol, .build _ (Description.build_visiting state symbol),
      visits_visiting state symbol⟩

/-- A machine that gets stuck in a state with a colon, on a colon. -/
theorem wellKept_of_made_visiting :
    (visiting "b:c" ':').Made ∧ (visiting "" 'x').Made ∧
      WellKept (visiting "b:c" ':') (visiting "" 'x') ∧
      ∃ e : Execution, e.machine = visiting "b:c" ':' ∧ e.state = "b:c" ∧ e.symbol = ':' ∧
        e.step .silent () = (.stopped (.undefinedTransition "b:c" ':'), e, ()) := by
  have h : (visiting "b:c" ':').Made := .build _ (Description.build_visiting _ _)
  have h' : (visiting "" 'x').Made := .build _ (Description.build_visiting _ _)
  have hkept := wellKept_of_made _ _ h h'
  obtain ⟨tape, n, hstate, hsymbol, hhalt⟩ := visits_visiting "b:c" ':'
  have hmachine := Execution.machine_after ((visiting "b:c" ':').execute tape) n
  have hstep := hkept.stops _ hmachine (hstate.trans_ne hhalt) (.inr (.inr hsymbol)) Unit .silent ()
  rw [hstate, hsymbol] at hstep
  exact ⟨h, h', hkept, _, hmachine, hstate, hsymbol, hstep⟩

end Machine

end TapeMachine
