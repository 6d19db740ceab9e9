import Mathlib
import TapeMachine.Proofs.Lockstep
import TapeMachine.Proofs.Machine.Build
import TapeMachine.Proofs.Tape.Extent
/-!
# Left and right

A machine with left and right exchanged does on the reversed tape what the machine does, the other
way round: `mirrorImage_of_mirrors`. The only asymmetry is that of the positions themselves. The first
of them, `-2 ^ 63`, has no opposite (its negation is itself), so that nothing may stand there, and the
budget has to be too small for the head to get there.
-/

namespace TapeMachine

/-! ## Left and right exchanged -/

def Direction.mirrored : Direction → Direction
  | left => right
  | right => left
  | stay => stay

def Transition.mirrored (t : Transition) : Transition :=
  { t with direction := t.direction.mirrored }

def Entry.mirrored (entry : Entry) : Entry :=
  (entry.1, { entry.2 with direction := entry.2.direction.mirrored })

def Table.mirrored (t : Table) : Table :=
  ⟨t.rows.map fun _ row => row.map fun _ t => t.mirrored⟩

/-- The machine with left and right exchanged in all its transitions. -/
def Machine.mirrored (m : Machine) : Machine :=
  { m with table := m.table.mirrored }

/-- The description with left and right exchanged in all its transitions. -/
def Description.mirrored (d : Description) : Description :=
  { d with transitions := d.transitions.map Entry.mirrored }

/-- The event of the step the other way round. -/
def TraceEvent.mirrored (event : TraceEvent) : TraceEvent :=
  { event with head := -event.head, direction := event.direction.mirrored }

@[simp] theorem Direction.offset_mirrored (d : Direction) : d.mirrored.offset = -d.offset := by
  cases d <;> rfl

@[simp] theorem Table.lookup_mirrored (t : Table) (state : State) (symbol : Symbol) :
    t.mirrored.lookup state symbol = (t.lookup state symbol).map Transition.mirrored := by
  unfold lookup row mirrored
  rw [Std.ExtTreeMap.getElem?_map]
  cases t.rows[state]? with
  | none => simp
  | some row => simp [Std.ExtTreeMap.getElem?_map]

theorem Machine.transition?_mirrored (m : Machine) (state : State) (symbol : Symbol) :
    m.mirrored.transition? state symbol = (m.transition? state symbol).map Transition.mirrored :=
  m.table.lookup_mirrored state symbol

theorem Direction.mirrored_mirrored (d : Direction) : d.mirrored.mirrored = d := by
  cases d <;> rfl

theorem Transition.mirrored_involutive : Function.Involutive Transition.mirrored := by
  intro t
  simp [mirrored, Direction.mirrored_mirrored]

theorem Entry.mirrored_involutive : Function.Involutive Entry.mirrored := by
  intro entry
  simp [mirrored, Direction.mirrored_mirrored]

namespace Table

variable {table : Table} {entries : List Entry}

theorem NoEmptyRow.mirrored (h : table.NoEmptyRow) : table.mirrored.NoEmptyRow := by
  intro state row hrow
  rw [Table.mirrored, Std.ExtTreeMap.getElem?_map, Option.map_eq_some_iff] at hrow
  obtain ⟨row, hrow, rfl⟩ := hrow
  rw [ne_eq, Std.ExtTreeMap.map_eq_empty_iff]
  exact h state row hrow

theorem Consistent.mirrored (h : Consistent entries) :
    Consistent (entries.map Entry.mirrored) := by
  obtain ⟨hw, hk, hn⟩ := consistent_iff.1 h
  refine consistent_iff.2 ⟨List.forall_mem_map.2 hw, List.forall_mem_map.2 hk, ?_⟩
  rw [List.map_map]
  exact hn

theorem Holds.mirrored (h : table.Holds entries) :
    table.mirrored.Holds (entries.map Entry.mirrored) where
  noEmptyRow := h.noEmptyRow.mirrored
  lookup state symbol t := by
    have ht : ∀ u : Transition, u.mirrored = t ↔ u = t.mirrored :=
      fun u => Transition.mirrored_involutive.eq_iff
    rw [List.mem_map_of_involutive Entry.mirrored_involutive, lookup_mirrored,
      Option.map_eq_some_iff]
    simp only [ht, exists_eq_right, h.lookup]
    rfl

end Table

/-- A machine that can be built can also be built the other way round. -/
theorem Description.build_mirrored {d : Description} {m : Machine} (h : d.build = .ok m) :
    d.mirrored.build = .ok m.mirrored := by
  obtain ⟨hd, hc, hh⟩ := build_eq_ok_iff.1 h
  refine build_eq_ok_iff.2 ⟨?_, hc.mirrored, hh.mirrored⟩
  exact congrArg Description.mirrored hd

/-! ## Positions -/

variable {p q first last : Position}

theorem toInt_neg_of_lt (h : p.toInt.natAbs < 2 ^ 63) : (-p).toInt = -p.toInt := by
  rw [Int64.toInt_neg]
  exact Int.bmod_eq_of_le (by omega) (by omega)

/-! ## Tapes -/

namespace Tape

variable {t u : Tape} {s : Symbol}

/-- On each tape stands what stands on the other one at the opposite position. -/
structure Mirrors (t u : Tape) : Prop where
  blank : u.blank = t.blank
  read : ∀ p, u.read p = t.read (-p)

/-- The tape the other way round. -/
def mirrored (t : Tape) : Tape :=
  (empty t.blank).writeAll (t.toList.map fun (p, s) => (-p, s))

theorem mirrors_mirrored (t : Tape) : t.Mirrors t.mirrored where
  blank := by simp [mirrored]
  read p := by
    have hmem : ∀ s, (p, s) ∈ (t.toList.map fun (p, s) => (-p, s)) ↔ t.cells[-p]? = some s := by
      intro s
      rw [← Std.ExtTreeMap.mem_toList_iff_getElem?_eq_some, List.mem_map]
      constructor
      · rintro ⟨⟨q, s⟩, hq, heq⟩
        cases heq
        rwa [Int64.neg_neg]
      · intro hp
        exact ⟨_, hp, by simp⟩
    rw [mirrored, read_writeAll, lastWritten?_eq_of_mem_iff hmem, read_empty]
    rfl

/-- Every cell that is set has an opposite one. -/
def IsInner (t : Tape) : Prop := ∀ p, t.isSet p → p.toInt.natAbs < 2 ^ 63

theorem IsInner.write (h : t.IsInner) (hq : q.toInt.natAbs < 2 ^ 63) : (t.write q s).IsInner := by
  intro p hp
  rcases eq_or_isSet_of_write hp with rfl | hp
  · exact hq
  · exact h p hp

/-- A text stands to the right of position 0. -/
theorem isInner_ofString (text : String) (b : Symbol) : (ofString text b).IsInner := by
  intro p hp
  rw [isSet_iff, blank_ofString, read_ofString, charAt?] at hp
  have hlt := p.toInt_lt
  split at hp
  · omega
  · exact absurd rfl hp

/-- From the right the `i`th cell is as far from the left as there are cells after it. -/
theorem neg_add_ofNat {i : Nat} (hi : i < span first last) :
    -(-last + Int64.ofNat i) = first + Int64.ofNat (span first last - 1 - i) := by
  have hk : ((span first last - 1 - i : Nat) : Int) = last.toInt - first.toInt - i := by
    unfold span at *
    omega
  rw [← Int64.ofInt_eq_ofNat, ← Int64.ofInt_eq_ofNat, hk, Int64.ofInt_sub, Int64.ofInt_sub,
    Int64.ofInt_toInt, Int64.ofInt_toInt]
  grind

namespace Mirrors

theorem isSet (h : t.Mirrors u) (p : Position) : u.isSet p ↔ t.isSet (-p) := by
  rw [isSet_iff, isSet_iff, h.blank, h.read]

theorem write (h : t.Mirrors u) (p : Position) (s : Symbol) :
    (t.write p s).Mirrors (u.write (-p) s) where
  blank := by simp [h.blank]
  read q := by
    have hq : q = -p ↔ -q = p := by rw [← Int64.neg_inj, Int64.neg_neg]
    simp only [read_write, h.read, hq]

theorem size (h : t.Mirrors u) : u.size = t.size := by
  have hinv : Function.Involutive fun p : Position => -p := fun p => Int64.neg_neg
  refine size_eq_of_perm hinv.toPerm fun p => ?_
  rw [Function.Involutive.coe_toPerm, h.isSet, Int64.neg_neg]

theorem bounds? (h : t.Mirrors u) (hi : t.IsInner) :
    u.bounds? = t.bounds?.map fun (first, last) => (-last, -first) := by
  cases hb : t.bounds? with
  | none =>
    rw [bounds?_eq_none_iff] at hb
    rw [Option.map_none, bounds?_eq_none_iff]
    exact fun p => mt (h.isSet p).1 (hb (-p))
  | some bounds =>
    obtain ⟨first, last⟩ := bounds
    obtain ⟨hf, hl, hall⟩ := bounds?_eq_some_iff.1 hb
    refine bounds?_eq_some_iff.2 ⟨?_, ?_, fun p hp => ?_⟩
    · rwa [h.isSet, Int64.neg_neg]
    · rwa [h.isSet, Int64.neg_neg]
    · -- the opposite cell lies between the bounds, and all three have opposites
      rw [h.isSet] at hp
      have hle := hall _ hp
      have hp := toInt_neg_of_lt (hi _ hp)
      rw [Int64.neg_neg] at hp
      simp only [Int64.le_iff_toInt_le, toInt_neg_of_lt (hi _ hf), toInt_neg_of_lt (hi _ hl)] at hle ⊢
      omega

theorem window (h : t.Mirrors u) (first last : Position) :
    u.window (-last) (span first last) = (t.window first (span first last)).reverse := by
  refine List.ext_getElem (by simp [Tape.window]) fun i hi _ => ?_
  have hi : i < span first last := by simpa [Tape.window] using hi
  simp [Tape.window, h.read, neg_add_ofNat hi]

theorem render (h : t.Mirrors u) (hi : t.IsInner) :
    u.render.toList = t.render.toList.reverse := by
  unfold Tape.render
  rw [h.bounds? hi]
  cases hb : t.bounds? with
  | none => rfl
  | some bounds =>
    obtain ⟨first, last⟩ := bounds
    obtain ⟨hf, hl, -⟩ := bounds?_eq_some_iff.1 hb
    have hspan : span (-last) (-first) = span first last := by
      unfold span
      rw [toInt_neg_of_lt (hi _ hf), toInt_neg_of_lt (hi _ hl)]
      omega
    simp [hspan, h.window]

end Mirrors

end Tape

/-! ## Runs -/

namespace Execution

variable {e e' : Execution} {t : Transition} {halt : Halt} {budget : StepCount} {n : Nat}

/-- The second execution is the first one the other way round. -/
structure Mirrored (e e' : Execution) : Prop where
  machine : e'.machine = e.machine.mirrored
  tape : e.tape.Mirrors e'.tape
  head : e'.head = -e.head
  state : e'.state = e.state
  steps : e'.steps = e.steps

namespace Mirrored

theorem symbol (h : Mirrored e e') : e'.symbol = e.symbol := by
  rw [Execution.symbol, Execution.symbol, h.tape.read, h.head, Int64.neg_neg]

theorem transition? (h : Mirrored e e') :
    e'.transition? = e.transition?.map Transition.mirrored := by
  rw [Execution.transition?, Execution.transition?, h.machine, h.state, h.symbol,
    Machine.transition?_mirrored]

theorem apply (h : Mirrored e e') (t : Transition) :
    Mirrored (e.apply t) (e'.apply t.mirrored) where
  machine := h.machine
  tape := by
    rw [Execution.apply, Execution.apply, h.head]
    exact h.tape.write e.head t.write
  head := by
    simp only [Execution.apply, Transition.mirrored, Direction.offset_mirrored, h.head,
      Int64.neg_add, Int64.sub_eq_add_neg]
  state := rfl
  steps := by rw [Execution.apply, Execution.apply, h.steps]

theorem event (h : Mirrored e e') (t : Transition) : e'.event t.mirrored = (e.event t).mirrored := by
  rw [Execution.event, Execution.event, h.steps, h.state, h.head, h.symbol]
  rfl

theorem translation : Translation id id Transition.mirrored TraceEvent.mirrored Mirrored where
  steps h := h.steps
  state h := h.state
  symbol h := h.symbol
  halted h := by rw [h.state, h.machine]; rfl
  transition? h := h.transition?
  event t h := h.event t
  apply t h := h.apply t

end Mirrored

/-- With a budget below `2 ^ 63` the head does not get to a position that has no opposite. -/
theorem StopsAfter.isInner (h : e.StopsAfter budget n halt) (hb : budget.toNat < 2 ^ 63)
    (he : e.head.toInt.natAbs ≤ e.steps.toNat) (ht : e.tape.IsInner) {i : Nat} (hi : i ≤ n) :
    (e.after i).tape.IsInner := by
  induction i with
  | zero => exact ht
  | succ i ih =>
    obtain ⟨hs, t, -, hn⟩ := h.moved hi
    have hlt := UInt64.lt_iff_toNat_lt.1 hs
    have hhead := h.natAbs_head_le hb he (Nat.le_of_succ_le hi)
    rw [hn]
    exact (ih (Nat.le_of_succ_le hi)).write (by omega)

end Execution

/-- The second outcome is the first one the other way round. The opposites are those of the integers:
`inner` says so of the cells that are set. -/
structure MirrorImage (o o' : Outcome) : Prop where
  steps : o'.steps = o.steps
  state : o'.state = o.state
  halt : o'.halt = o.halt
  head : o'.head.toInt = -o.head.toInt
  tape : o.tape.Mirrors o'.tape
  inner : o.tape.IsInner
  bounds : o'.tape.bounds? = o.tape.bounds?.map fun (first, last) => (-last, -first)
  size : o'.tape.size = o.tape.size
  rendered : o'.rendered.toList = o.rendered.toList.reverse

/-- A machine with left and right exchanged comes to the mirror image on the mirror image. -/
theorem mirrorImage_of_mirrors (m : Machine) (t t' : Tape) (h : t.Mirrors t') (hi : t.IsInner)
    (budget : StepCount) (hb : budget.toNat < 2 ^ 63) :
    MirrorImage (m.run t budget) (m.mirrored.run t' budget) := by
  obtain ⟨n, halt, hs⟩ := Execution.exists_stopsAfter budget (m.execute t)
  have hstart : Execution.Mirrored (m.execute t) (m.mirrored.execute t') :=
    ⟨rfl, h, Int64.neg_zero.symm, rfl, rfl⟩
  obtain ⟨hlast, hs', -⟩ := (Execution.Mirrored.translation.lockstep budget).stopsAfter hstart hs
  have horigin : (m.execute t).head.toInt.natAbs ≤ (m.execute t).steps.toNat := le_rfl
  have hinner := hs.isInner hb horigin hi le_rfl
  have hhead : ((m.execute t).after n).head.toInt.natAbs < 2 ^ 63 := by
    have hle := hs.natAbs_head_le hb horigin le_rfl
    have hsteps := hs.toNat_steps le_rfl
    have hn := hs.steps_add_le UInt64.zero_le
    omega
  rw [Machine.run, Machine.run, Execution.run_fst .silent () hs, Execution.run_fst .silent () hs']
  exact {
    steps := hlast.steps
    state := hlast.state
    halt := Halt.map_id halt
    head := by
      rw [Execution.outcome, hlast.head]
      exact toInt_neg_of_lt hhead
    tape := hlast.tape
    inner := hinner
    bounds := hlast.tape.bounds? hinner
    size := hlast.tape.size
    rendered := hlast.tape.render hinner }

/-- On a tape whose mirror image has its only cell on the left of where the head starts. -/
theorem mirrorImage_of_mirrors_twoOnes :
    (Tape.ofString "___1" '_').Mirrors (Tape.ofString "___1" '_').mirrored ∧
      (Tape.ofString "___1" '_').IsInner ∧ (9 : StepCount).toNat < 2 ^ 63 ∧
      MirrorImage (Machine.twoOnes.run (.ofString "___1" '_') 9)
        (Machine.twoOnes.mirrored.run (Tape.ofString "___1" '_').mirrored 9) :=
  have h := (Tape.ofString "___1" '_').mirrors_mirrored
  have hi := Tape.isInner_ofString "___1" '_'
  ⟨h, hi, by decide, mirrorImage_of_mirrors _ _ _ h hi 9 (by decide)⟩

end TapeMachine
