import Mathlib
import TapeMachine.Description.Reader
import TapeMachine.Proofs.Json.Members
/-!
# Which values are descriptions

`ofJson_eq_ok_iff`: a text is read as a description if and only if the value that it spells
describes it. What that means is said of the value alone (`Value.Describes`). An object has each of
the fields once, in any order and between members of other names, the name apart, which may be
missing; an array has the seven fields in their order and nothing else.
-/

namespace TapeMachine

open Json

/-! ## Parts of a description -/

namespace Json.Value

/-- An array of strings. -/
def texts? (v : Value) : Option (List String) := v.elements? >>= List.mapM text?

def direction? (v : Value) : Option Direction :=
  v.variant? (Direction.all.map fun d => (String.singleton d.letter, d))

/-- An instruction is an array of three. -/
def instruction? : Value → Option Instruction
  | array [next, write, direction] => do
    return ⟨← next.text?, ← write.text?, ← direction.direction?⟩
  | _ => none

/-- The entries of an object, in the order of its members. -/
def entries? (v : Value) : Option (List (String × Instruction)) :=
  v.members? >>= List.mapM (Member.entry? instruction?)

end Json.Value

theorem decodes_texts : Decodes (.list .string) Value.texts? := decodes_list decodes_string

theorem decodes_direction : Decodes Direction.reader Value.direction? := decodes_variant _

/-- The fields of an instruction, with what they decode. -/
def TransitionSlots.parts : List (DecodedField (TransitionSlots String)) := [
  .ofSlot "next_state" (·.next) (fun x slots => { slots with next := x }) decodes_string,
  .ofSlot "write" (·.write) (fun x slots => { slots with write := x }) decodes_string,
  .ofSlot "direction" (·.direction) (fun x slots => { slots with direction := x })
    decodes_direction]

theorem decodes_instruction : Decodes Instruction.reader Value.instruction? := by
  intro v s rest hs
  refine (decodes_tuple TransitionSlots.parts rfl hs).trans (congrArg _ ?_)
  change (v.elements? >>= fun vs => fillInOrder TransitionSlots.parts {} vs >>= fun slots =>
    (TransitionSlots.complete Instruction.mk slots).toOption) = _
  rcases v with _ | _ | _ | _ | vs | _
  case array =>
    simp only [Value.elements?, Option.bind_eq_bind, Option.bind_some, TransitionSlots.parts]
    rcases vs with _ | ⟨next, _ | ⟨write, _ | ⟨direction, _ | ⟨v, vs⟩⟩⟩⟩
    · rfl
    · rw [fillInOrder_ofSlot]
      cases next.text? <;> rfl
    · simp only [fillInOrder_ofSlot]
      cases next.text? <;> cases write.text? <;> rfl
    · simp only [fillInOrder_ofSlot, Value.instruction?]
      cases next.text? <;> cases write.text? <;> cases direction.direction? <;> rfl
    · simp only [fillInOrder_ofSlot]
      cases next.text? <;> cases write.text? <;> cases direction.direction? <;> rfl
  all_goals rfl

theorem decodes_transitions : Decodes Description.entriesReader Value.entries? :=
  decodes_entries _ decodes_instruction

/-! ## Values that describe -/

namespace Json

/-- The values of the members with the name, in their order. -/
def valuesOf (name : String) (ms : List Value.Member) : List Value :=
  (ms.filter (·.1 = some name)).map (·.2)

@[simp] theorem valuesOf_nil (name : String) : valuesOf name [] = [] := rfl

@[simp] theorem valuesOf_cons (name other : String) (v : Value) (ms : List Value.Member) :
    valuesOf name ((some other, v) :: ms) =
      if other = name then v :: valuesOf name ms else valuesOf name ms := by
  by_cases h : other = name <;> simp [valuesOf, h]

/-- Among the members there is one with the name, and its value stands for `x`. -/
def HasField {α : Type} (ms : List Value.Member) (name : String) (decode : Value → Option α)
    (x : α) : Prop :=
  ∃ v, valuesOf name ms = [v] ∧ decode v = some x

end Json

/-- The members of an object make a description. -/
structure MembersDescribe (ms : List Value.Member) (d : Description) : Prop where
  named : ∀ m ∈ ms, m.1 ≠ none
  name : valuesOf "name" ms = [] ∧ d.name = none ∨
    HasField ms "name" (Value.orNull Value.text?) d.name
  states : HasField ms "states" Value.texts? d.states
  alphabet : HasField ms "alphabet" Value.texts? d.alphabet
  blank : HasField ms "blank" Value.text? d.blank
  transitions : HasField ms "transitions" Value.entries? d.transitions
  start : HasField ms "start" Value.text? d.start
  halt : HasField ms "halt" Value.text? d.halt

/-- The value is a description, as an object or as an array. -/
def Json.Value.Describes : Value → Description → Prop
  | .object ms, d => MembersDescribe ms d
  | .array [name, states, alphabet, blank, transitions, start, halt], d =>
    name.orNull Value.text? = some d.name ∧ states.texts? = some d.states ∧
      alphabet.texts? = some d.alphabet ∧ blank.text? = some d.blank ∧
      transitions.entries? = some d.transitions ∧ start.text? = some d.start ∧
      halt.text? = some d.halt
  | _, _ => False

/-! ## One slot -/

/-- What a slot holds after the values of its field. -/
def putAll {α : Type} (decode : Value → Option α) : Option α → List Value → Option (Option α)
  | slot, [] => some slot
  | some _, _ :: _ => none
  | none, v :: vs => do putAll decode (some (← decode v)) vs

section PutAll

variable {α : Type} {decode : Value → Option α} {vs : List Value}

theorem putAll_cons_iff {slot filled : Option α} {v : Value} :
    putAll decode slot (v :: vs) = some filled ↔
      slot = none ∧ ∃ x, decode v = some x ∧ putAll decode (some x) vs = some filled := by
  cases slot with
  | some x => simp [putAll]
  | none => cases hd : decode v <;> simp [putAll, hd]

theorem putAll_none_eq_none_iff : putAll decode none vs = some none ↔ vs = [] := by
  cases vs with
  | nil => simp [putAll]
  | cons v vs =>
    rw [putAll_cons_iff]
    cases vs <;> simp [putAll]

theorem putAll_none_eq_some_iff {x : α} :
    putAll decode none vs = some (some x) ↔ ∃ v, vs = [v] ∧ decode v = some x := by
  cases vs with
  | nil => simp [putAll]
  | cons v vs =>
    rw [putAll_cons_iff]
    cases vs <;> simp [putAll]

end PutAll

/-! ## All slots -/

namespace Description

/-- The fields of a description, with what they decode. -/
def Slots.parts : List (DecodedField Slots) := [
  .ofSlot "name" (·.name) (fun x slots => { slots with name := x }) decodes_string.nullable,
  .ofSlot "states" (·.states) (fun x slots => { slots with states := x }) decodes_texts,
  .ofSlot "alphabet" (·.alphabet) (fun x slots => { slots with alphabet := x }) decodes_texts,
  .ofSlot "blank" (·.blank) (fun x slots => { slots with blank := x }) decodes_string,
  .ofSlot "transitions" (·.transitions) (fun x slots => { slots with transitions := x })
    decodes_transitions,
  .ofSlot "start" (·.start) (fun x slots => { slots with start := x }) decodes_string,
  .ofSlot "halt" (·.halt) (fun x slots => { slots with halt := x }) decodes_string]

/-- Each slot is filled by the members of its own name. -/
@[mk_iff]
structure Slots.Filled (slots : Slots) (ms : List Value.Member) (filled : Slots) : Prop where
  named : ∀ m ∈ ms, m.1 ≠ none
  name : putAll (Value.orNull Value.text?) slots.name (valuesOf "name" ms) = some filled.name
  states : putAll Value.texts? slots.states (valuesOf "states" ms) = some filled.states
  alphabet : putAll Value.texts? slots.alphabet (valuesOf "alphabet" ms) = some filled.alphabet
  blank : putAll Value.text? slots.blank (valuesOf "blank" ms) = some filled.blank
  transitions : putAll Value.entries? slots.transitions (valuesOf "transitions" ms) =
    some filled.transitions
  start : putAll Value.text? slots.start (valuesOf "start" ms) = some filled.start
  halt : putAll Value.text? slots.halt (valuesOf "halt" ms) = some filled.halt

theorem fill_eq_some_iff {slots filled : Slots} {ms : List Value.Member} :
    fill Slots.parts slots ms = some filled ↔ slots.Filled ms filled := by
  induction ms generalizing slots with
  | nil =>
    rcases slots with ⟨⟩
    rcases filled with ⟨⟩
    simp [fill, Slots.filled_iff, putAll]
  | cons m ms ih =>
    obtain ⟨_ | name, v⟩ := m
    · simp [fill, Slots.filled_iff]
    have hnames : Slots.parts.map (·.field.name) =
        ["name", "states", "alphabet", "blank", "transitions", "start", "halt"] := rfl
    by_cases hname : name ∈ Slots.parts.map (·.field.name)
    · simp only [hnames, List.mem_cons, List.not_mem_nil, or_false] at hname
      rcases hname with rfl | rfl | rfl | rfl | rfl | rfl | rfl
      all_goals
        rw [fill_ofSlot Slots.parts rfl]
        simp only [ih, Slots.filled_iff, List.forall_mem_cons, valuesOf_cons, String.reduceEq,
          if_true, if_false, putAll_cons_iff, ne_eq, reduceCtorEq, not_false_eq_true, true_and]
        grind
    · have hfind : Slots.parts.find? (·.field.name = name) = none := by
        simpa [List.find?_eq_none] using hname
      simp only [hnames, List.mem_cons, List.not_mem_nil, or_false, not_or] at hname
      rw [fill, hfind]
      simp [ih, Slots.filled_iff, hname]

theorem complete_eq_ok_iff {slots : Slots} {d : Description} :
    slots.complete = .ok d ↔ slots.name.join = d.name ∧ slots.states = some d.states ∧
      slots.alphabet = some d.alphabet ∧ slots.blank = some d.blank ∧
      slots.transitions = some d.transitions ∧ slots.start = some d.start ∧
      slots.halt = some d.halt := by
  rcases slots with ⟨name, states, alphabet, blank, transitions, start, halt⟩
  rcases d with ⟨name', states', alphabet', blank', transitions', start', halt'⟩
  cases states with
  | none => exact ⟨nofun, nofun⟩
  | some states =>
  cases alphabet with
  | none => exact ⟨nofun, nofun⟩
  | some alphabet =>
  cases blank with
  | none => exact ⟨nofun, nofun⟩
  | some blank =>
  cases transitions with
  | none => exact ⟨nofun, nofun⟩
  | some transitions =>
  cases start with
  | none => exact ⟨nofun, nofun⟩
  | some start =>
  cases halt with
  | none => exact ⟨nofun, nofun⟩
  | some halt => simp [Slots.complete, pure, Except.pure, bind, Except.bind]

/-! ## Descriptions -/

theorem exists_filled_iff {ms : List Value.Member} {d : Description} :
    (∃ slots : Slots, Slots.Filled {} ms slots ∧ slots.complete = .ok d) ↔
      MembersDescribe ms d := by
  constructor
  · rintro ⟨slots, h, hd⟩
    obtain ⟨hname, hstates, halphabet, hblank, htransitions, hstart, hhalt⟩ :=
      complete_eq_ok_iff.1 hd
    refine ⟨h.named, ?_, putAll_none_eq_some_iff.1 (hstates ▸ h.states),
      putAll_none_eq_some_iff.1 (halphabet ▸ h.alphabet),
      putAll_none_eq_some_iff.1 (hblank ▸ h.blank),
      putAll_none_eq_some_iff.1 (htransitions ▸ h.transitions),
      putAll_none_eq_some_iff.1 (hstart ▸ h.start), putAll_none_eq_some_iff.1 (hhalt ▸ h.halt)⟩
    have hput := h.name
    cases hs : slots.name with
    | none =>
      rw [hs] at hput hname
      exact .inl ⟨putAll_none_eq_none_iff.1 hput, hname.symm⟩
    | some name =>
      rw [hs] at hput hname
      cases hname
      exact .inr (putAll_none_eq_some_iff.1 hput)
  · intro h
    have hput {α : Type} {name : String} {decode : Value → Option α} {x : α}
        (hf : HasField ms name decode x) :
        putAll decode none (valuesOf name ms) = some (some x) := putAll_none_eq_some_iff.2 hf
    rcases h.name with ⟨hnone, hname⟩ | hname
    · refine ⟨⟨none, d.states, d.alphabet, d.blank, d.transitions, d.start, d.halt⟩,
        ⟨h.named, putAll_none_eq_none_iff.2 hnone, hput h.states, hput h.alphabet, hput h.blank,
          hput h.transitions, hput h.start, hput h.halt⟩, complete_eq_ok_iff.2 ?_⟩
      exact ⟨hname.symm, rfl, rfl, rfl, rfl, rfl, rfl⟩
    · refine ⟨⟨some d.name, d.states, d.alphabet, d.blank, d.transitions, d.start, d.halt⟩,
        ⟨h.named, hput hname, hput h.states, hput h.alphabet, hput h.blank, hput h.transitions,
          hput h.start, hput h.halt⟩, complete_eq_ok_iff.2 ?_⟩
      exact ⟨rfl, rfl, rfl, rfl, rfl, rfl, rfl⟩

theorem fillInOrder_iff {vs : List Value} {d : Description} :
    (∃ slots, fillInOrder Slots.parts {} vs = some slots ∧ slots.complete = .ok d) ↔
      (Value.array vs).Describes d := by
  rcases vs with _ | ⟨v₁, _ | ⟨v₂, _ | ⟨v₃, _ | ⟨v₄, _ | ⟨v₅, _ | ⟨v₆, _ | ⟨v₇, _ | ⟨v₈, vs⟩⟩⟩⟩⟩⟩⟩⟩
  all_goals
    simp only [Slots.parts, fillInOrder_ofSlot]
    simp [Option.bind_eq_some_iff, complete_eq_ok_iff, Value.Describes]

theorem decodes_description : Decodes reader fun v =>
    v.slots? Slots.parts {} >>= fun slots => slots.complete.toOption :=
  decodes_record Slots.parts rfl

/-- A text is read as a description if and only if its value is this description. -/
theorem ofJson_eq_ok_iff {text : String} {v : Value} {d : Description} (hv : v.IsSpelled text) :
    ofJson text = .ok d ↔ v.Describes d := by
  rw [← toOption_eq_some_iff, ofJson, decodes_description.parse hv, Option.bind_eq_bind,
    Option.bind_eq_some_iff]
  simp only [toOption_eq_some_iff]
  cases v with
  | object ms =>
    simp only [Value.slots?, fill_eq_some_iff]
    exact exists_filled_iff
  | array vs => exact fillInOrder_iff
  | _ => simp [Value.slots?, Value.Describes]

end Description

end TapeMachine
