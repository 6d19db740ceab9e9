import Mathlib
import TapeMachine.Description.Writer
import TapeMachine.Machine.Build
import TapeMachine.Proofs.Json.Records
/-!
# Written descriptions read back

Every part of a description is read as it was written, whatever its strings hold and in every
layout, and so is the whole (`reads_description`). `read_toJson`: a description survives its text,
repeated and misspelled keys in their order included.
-/

namespace TapeMachine

open Json

/-! ## Parts -/

theorem reads_direction (d : Direction) : Reads Direction.reader d.write d :=
  reads_variant (by cases d <;> rfl)

theorem reads_instruction (layout : Layout) (i : Instruction) :
    Reads Instruction.reader (i.writeTo layout) i :=
  reads_tuple layout
    (.cons ((reads_string i.next).map _) <| .cons ((reads_string i.write).map _) <|
      .cons ((reads_direction i.direction).map _) (.nil _))
    rfl

theorem reads_symbol (symbol : Symbol) :
    Reads Symbol.reader (writeString (String.singleton symbol)) symbol :=
  reads_text (by rw [Symbol.ofString?_singleton])

theorem reads_transition (layout : Layout) (t : Transition) :
    Reads Transition.reader (t.writeTo layout) t :=
  reads_record layout
    (.slot rfl rfl (reads_string t.next) <| .slot rfl rfl (reads_symbol t.write) <|
      .slot rfl rfl (reads_direction t.direction) (.nil _))
    rfl

namespace Description

theorem reads_strings (layout : Layout) (texts : List String) :
    Reads (.list .string) (writeArray layout (texts.map writeString)) texts := by
  refine reads_list layout ?_
  rw [List.forall₂_map_left_iff, List.forall₂_same]
  exact fun text _ => reads_string text

theorem reads_transitions (layout : Layout) (transitions : List (String × Instruction)) :
    Reads entriesReader
      (writeObject layout (transitions.map fun (key, instruction) =>
        (key, instruction.writeTo layout.inner))) transitions := by
  refine reads_entries layout ?_
  rw [List.forall₂_map_left_iff, List.forall₂_same]
  exact fun entry _ => ⟨rfl, reads_instruction layout.inner entry.2⟩

/-! ## Descriptions -/

/-- The members after the name fill the slots, whether there was a name or not. -/
theorem fills_unnamed (layout : Layout) (d : Description) (name : Option (Option String)) :
    Fills Slots.fields { name } [
      ("states", writeArray layout (d.states.map writeString)),
      ("alphabet", writeArray layout (d.alphabet.map writeString)),
      ("blank", writeString d.blank),
      ("transitions", writeObject layout (d.transitions.map fun (key, instruction) =>
        (key, instruction.writeTo layout.inner))),
      ("start", writeString d.start),
      ("halt", writeString d.halt)]
      ⟨name, d.states, d.alphabet, d.blank, d.transitions, d.start, d.halt⟩ :=
  .slot rfl rfl (reads_strings layout d.states) <|
  .slot rfl rfl (reads_strings layout d.alphabet) <|
  .slot rfl rfl (reads_string d.blank) <|
  .slot rfl rfl (reads_transitions layout d.transitions) <|
  .slot rfl rfl (reads_string d.start) <|
  .slot rfl rfl (reads_string d.halt) (.nil _)

theorem complete_filled (d : Description) {name : Option (Option String)} (h : name.join = d.name) :
    Slots.complete ⟨name, d.states, d.alphabet, d.blank, d.transitions, d.start, d.halt⟩ = .ok d := by
  rcases d with ⟨name', states, alphabet, blank, transitions, start, halt⟩
  cases h
  rfl

/-- A description is read back in every layout, with its name or without one. -/
theorem reads_description (layout : Layout) (d : Description) :
    Reads reader (d.writeTo layout) d := by
  cases hn : d.name with
  | none =>
    -- a missing name is no member, and a slot that stays empty is a missing name
    rw [writeTo, hn]
    exact reads_record layout (fills_unnamed layout.inner d none) (complete_filled d hn.symm)
  | some name =>
    rw [writeTo, hn]
    have hname : Reads (.nullable .string) (writeString name) (some name) := (reads_string name).nullable
    exact reads_record layout (.slot rfl rfl hname (fills_unnamed layout.inner d (some (some name))))
      (complete_filled d hn.symm)

/-- Every description is read back from its text as it was, with the same entries in the same
order. -/
theorem read_toJson (d : Description) :
    ofJson d.toJson = .ok d ∧ Description.read d.toJson = .ok d := by
  have h : ofJson d.toJson = .ok d := (reads_description (.indented 0) d).parse
  exact ⟨h, by rw [Description.read, h]⟩

end Description

end TapeMachine
