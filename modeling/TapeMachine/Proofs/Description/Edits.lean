import Mathlib
import TapeMachine.Machine.Build
import TapeMachine.Proofs.Description.Document
import TapeMachine.Proofs.Json.Pieces
/-!
# Other texts for one description

What a description is does not depend on the order of its members, on members that it does not ask
for or on the blanks between tokens: an `Edit` changes a text in one of these ways. It does depend on
each member being there once, the name apart, which may be missing: a text that a member has been
added to again or taken from is no description, which `Spoils` says. `read_of_edits` is about the
texts that any number of edits lead to.
-/

namespace TapeMachine

open Json

/-! ## Values by name -/

section Values

variable {α : Type} {decode : Value → Option α} {x : α} {name : String} {v : Value}
  {m : Value.Member} {ms ms' left right : List Value.Member}

theorem mem_valuesOf : v ∈ valuesOf name ms ↔ (some name, v) ∈ ms := by
  simp [valuesOf]

theorem valuesOf_perm (h : ms.Perm ms') : (valuesOf name ms).Perm (valuesOf name ms') :=
  (h.filter _).map _

theorem valuesOf_insert (h : m.1 = some name) :
    (valuesOf name (left ++ m :: right)).Perm (m.2 :: valuesOf name (left ++ right)) := by
  simp [valuesOf, h]

theorem valuesOf_insert_of_ne (h : m.1 ≠ some name) :
    valuesOf name (left ++ m :: right) = valuesOf name (left ++ right) := by
  simp [valuesOf, h]

theorem Json.HasField.exists_value (h : HasField ms name decode x) :
    ∃ v, valuesOf name ms = [v] := by
  obtain ⟨v, hv, -⟩ := h
  exact ⟨v, hv⟩

theorem Json.HasField.congr (h : HasField ms name decode x)
    (hvalues : valuesOf name ms' = valuesOf name ms) : HasField ms' name decode x := by
  rw [HasField, hvalues]
  exact h

end Values

namespace Description

/-! ## The members of a description -/

/-- The names that a description asks for. -/
def memberNames : List String := Slots.fields.map (·.name)

theorem memberNames_eq :
    memberNames = ["name", "states", "alphabet", "blank", "transitions", "start", "halt"] := rfl

end Description

namespace MembersDescribe

open Description

variable {d : Description} {name : String} {m : Value.Member}
  {ms ms' left right : List Value.Member}

theorem exists_value (h : MembersDescribe ms d) (hname : name ∈ memberNames) (hne : name ≠ "name") :
    ∃ v, valuesOf name ms = [v] := by
  simp only [memberNames_eq, List.mem_cons, List.not_mem_nil, or_false] at hname
  rcases hname with rfl | rfl | rfl | rfl | rfl | rfl | rfl
  · exact absurd rfl hne
  · exact h.states.exists_value
  · exact h.alphabet.exists_value
  · exact h.blank.exists_value
  · exact h.transitions.exists_value
  · exact h.start.exists_value
  · exact h.halt.exists_value

/-- No member that a description asks for comes twice. -/
theorem eq_nil_or_exists_value (h : MembersDescribe ms d) (hname : name ∈ memberNames) :
    valuesOf name ms = [] ∨ ∃ v, valuesOf name ms = [v] := by
  by_cases hne : name = "name"
  · subst hne
    rcases h.name with ⟨hnone, -⟩ | ⟨v, hv, -⟩
    · exact .inl hnone
    · exact .inr ⟨v, hv⟩
  · exact .inr (h.exists_value hname hne)

/-- Only the values of the members that a description asks for matter to it. -/
theorem congr (h : MembersDescribe ms d) (hnamed : ∀ m ∈ ms', m.1 ≠ none)
    (hvalues : ∀ name ∈ memberNames, valuesOf name ms' = valuesOf name ms) :
    MembersDescribe ms' d := by
  simp only [memberNames_eq, List.forall_mem_cons] at hvalues
  obtain ⟨hname, hstates, halphabet, hblank, htransitions, hstart, hhalt, -⟩ := hvalues
  exact {
    named := hnamed
    name := by
      rw [hname]
      exact h.name.imp_right fun hfield => hfield.congr hname
    states := h.states.congr hstates
    alphabet := h.alphabet.congr halphabet
    blank := h.blank.congr hblank
    transitions := h.transitions.congr htransitions
    start := h.start.congr hstart
    halt := h.halt.congr hhalt }

theorem of_perm (h : MembersDescribe ms d) (hperm : ms.Perm ms') : MembersDescribe ms' d := by
  refine h.congr (fun m hm => h.named m (hperm.mem_iff.2 hm)) fun name hname => ?_
  have hvalues : (valuesOf name ms).Perm (valuesOf name ms') := valuesOf_perm hperm
  rcases h.eq_nil_or_exists_value hname with hnil | ⟨v, hv⟩
  · rw [hnil] at hvalues ⊢
    exact hvalues.nil_eq.symm
  · rw [hv] at hvalues ⊢
    exact List.perm_singleton.1 hvalues.symm

theorem insert (h : MembersDescribe (left ++ right) d) (hm : m.1 = some name)
    (hname : name ∉ memberNames) : MembersDescribe (left ++ m :: right) d := by
  refine h.congr (fun m' hm' => ?_) fun other hother => valuesOf_insert_of_ne ?_
  · rw [List.mem_append, List.mem_cons] at hm'
    rcases hm' with hleft | rfl | hright
    · exact h.named m' (List.mem_append_left _ hleft)
    · simp [hm]
    · exact h.named m' (List.mem_append_right _ hright)
  · rw [hm]
    intro heq
    cases heq
    exact hname hother

/-- Without one of its members a description has none of that name. -/
theorem valuesOf_eq_nil (h : MembersDescribe (left ++ m :: right) d) (hname : name ∈ memberNames)
    (hm : m.1 = some name) : valuesOf name (left ++ right) = [] := by
  have hperm : (valuesOf name (left ++ m :: right)).Perm (m.2 :: valuesOf name (left ++ right)) :=
    valuesOf_insert hm
  rcases h.eq_nil_or_exists_value hname with hnil | ⟨v, hv⟩
  · rw [hnil] at hperm
    exact absurd hperm.symm.eq_nil (List.cons_ne_nil _ _)
  · rw [hv] at hperm
    exact (List.cons.inj (List.perm_singleton.1 hperm.symm)).2

theorem not_insert_again {first : Value.Member} (hname : name ∈ memberNames)
    (hfirst : first ∈ left ++ right) (hfirst' : first.1 = some name) (hm : m.1 = some name) :
    ¬ MembersDescribe (left ++ m :: right) d := by
  intro h
  have hmem : first.2 ∈ valuesOf name (left ++ right) := by
    rw [mem_valuesOf, ← hfirst']
    exact hfirst
  simp [h.valuesOf_eq_nil hname hm] at hmem

theorem not_remove {d' : Description} (h : MembersDescribe (left ++ m :: right) d)
    (hname : name ∈ memberNames) (hne : name ≠ "name") (hm : m.1 = some name) :
    ¬ MembersDescribe (left ++ right) d' := by
  intro h'
  obtain ⟨v, hv⟩ := h'.exists_value hname hne
  simp [h.valuesOf_eq_nil hname hm] at hv

end MembersDescribe

namespace Description

/-! ## Texts -/

variable {text text' : String} {d : Description}

theorem read_eq_ok_iff {v : Value} (hv : v.IsSpelled text) :
    read text = .ok d ↔ v.Describes d := by
  rw [← ofJson_eq_ok_iff hv]
  unfold read
  cases ofJson text <;> simp

theorem read_eq_error {v : Value} (hv : v.IsSpelled text) (h : ∀ d, ¬ v.Describes d) :
    ∃ error, read text = .error (.malformedDescription (.json error)) := by
  have hnot : ∀ d, ofJson text ≠ .ok d := fun d hd => h d ((ofJson_eq_ok_iff hv).1 hd)
  unfold read
  cases hread : ofJson text with
  | ok d => exact absurd hread (hnot d)
  | error error => exact ⟨error, rfl⟩

/-- The text is written otherwise: with its members in another order, with one more member that is
not asked for, or with other blanks between its tokens. The name of a member that is added has to
denote something, or the text would be no description for that. -/
inductive Edit : String → String → Prop
  | reorder {pieces pieces' : List Piece} {text text' : String} : pieces.Perm pieces' →
      IsObject pieces text → IsObject pieces' text' → Edit text text'
  | insert (left right : List Piece) (piece : Piece) {name : String} {text text' : String} :
      piece.member.1 = some name → name ∉ memberNames → IsObject (left ++ right) text →
      IsObject (left ++ piece :: right) text' → Edit text text'
  | space {text text' : String} : SameTokens text.toList text'.toList → Edit text text'

/-- One of the members is written once more, with any value, or is taken away. -/
inductive Spoils : String → String → Prop
  | again (left right : List Piece) (first second : Piece) {name : String} {text text' : String} :
      name ∈ memberNames → first ∈ left ++ right → first.member.1 = some name →
      second.member.1 = some name → IsObject (left ++ right) text →
      IsObject (left ++ second :: right) text' → Spoils text text'
  | remove (left right : List Piece) (piece : Piece) {name : String} {text text' : String} :
      name ∈ memberNames → name ≠ "name" → piece.member.1 = some name →
      IsObject (left ++ piece :: right) text → IsObject (left ++ right) text' → Spoils text text'

/-- The text is an object that is read as the description. -/
structure IsText (text : String) (d : Description) : Prop where
  object : ∃ ms, (Value.object ms).IsSpelled text
  read : read text = .ok d

theorem isText_iff {pieces : List Piece} (h : IsObject pieces text) :
    IsText text d ↔ MembersDescribe (pieces.map (·.member)) d :=
  ⟨fun ht => (read_eq_ok_iff h.isSpelled).1 ht.read,
    fun hd => ⟨⟨_, h.isSpelled⟩, (read_eq_ok_iff h.isSpelled).2 hd⟩⟩

theorem Edit.isText (h : Edit text text') (ht : IsText text d) : IsText text' d := by
  cases h with
  | reorder hperm hpieces hpieces' =>
    rw [isText_iff hpieces] at ht
    rw [isText_iff hpieces']
    exact ht.of_perm (hperm.map _)
  | insert _ _ _ hname hunknown hpieces hpieces' =>
    rw [isText_iff hpieces, List.map_append] at ht
    rw [isText_iff hpieces', List.map_append]
    exact ht.insert hname hunknown
  | space hsame =>
    obtain ⟨⟨ms, hv⟩, hd⟩ := ht
    have hv' := hv.of_sameTokens hsame
    exact ⟨⟨ms, hv'⟩, (read_eq_ok_iff hv').2 ((read_eq_ok_iff hv).1 hd)⟩

theorem Spoils.read_eq_error (h : Spoils text text') (ht : IsText text d) :
    ∃ error, Description.read text' = .error (.malformedDescription (.json error)) := by
  cases h with
  | again _ _ _ _ hname hfirst hfirst' hsecond _ hpieces' =>
    refine Description.read_eq_error hpieces'.isSpelled fun d' => ?_
    rw [List.map_append]
    refine MembersDescribe.not_insert_again hname ?_ hfirst' hsecond
    rw [← List.map_append]
    exact List.mem_map_of_mem hfirst
  | remove _ _ _ hname hne hpiece hpieces hpieces' =>
    refine Description.read_eq_error hpieces'.isSpelled fun d' => ?_
    rw [isText_iff hpieces, List.map_append] at ht
    rw [List.map_append]
    exact ht.not_remove hname hne hpiece

/-- An object that is read as a description has its members as pieces and its tokens. Whatever edits
are made of it, it is read as the same description, and if one of the members is written again or one
that is needed is taken away then it is none. -/
theorem read_of_edits (hv : ∃ ms, (Value.object ms).IsSpelled text) (hd : read text = .ok d) :
    (∃ pieces, IsObject pieces text) ∧ (∃ ws, Tokens ws text.toList) ∧
      (∀ text', Relation.ReflTransGen Edit text text' → read text' = .ok d) ∧
      ∀ text', Spoils text text' →
        ∃ error, read text' = .error (.malformedDescription (.json error)) := by
  obtain ⟨ms, hms⟩ := hv
  obtain ⟨pieces, -, hpieces⟩ := hms.exists_pieces
  have ht : IsText text d := ⟨⟨ms, hms⟩, hd⟩
  refine ⟨⟨pieces, hpieces⟩, hms.exists_tokens, fun text' h => ?_, fun text' h => h.read_eq_error ht⟩
  -- each edit keeps that the text is an object and what it is read as
  have ht' : IsText text' d := by
    induction h with
    | refl => exact ht
    | tail _ hedit ih => exact hedit.isText ih
  exact ht'.read

/-! ## A short description -/

/-- A member whose name stands for itself. -/
def plainPiece (name : String) (h : IsPlain name) {v : Value} {w : List Char}
    (hv : Spans (Spells v) w) : Piece where
  chars := '"' :: (name.toList ++ '"' :: ':' :: w)
  member := (some name, v)
  spelled := ⟨[], .of_isPlain h (.refl _) (.refl _) hv.whole, blank_nil⟩

theorem spans_string (text : String) (h : IsPlain text) :
    Spans (Spells (.string (some text))) ('"' :: (text.toList ++ ['"'])) := by
  intro rest
  exact .of_isPlain h ⟨[], blank_nil, by simp⟩

theorem spans_array_nil : Spans (Spells (.array [])) ['[', ']'] :=
  fun _ => .array (.refl _) (.close (.refl _))

theorem spans_object_nil : Spans (Spells (.object [])) ['{', '}'] :=
  fun _ => .object (.refl _) (.close (.refl _))

def statesPiece : Piece := plainPiece "states" (by decide) spans_array_nil

/-- The other members that a description needs. -/
def otherPieces : List Piece := [
  plainPiece "alphabet" (by decide) spans_array_nil,
  plainPiece "blank" (by decide) (spans_string "_" (by decide)),
  plainPiece "transitions" (by decide) spans_object_nil,
  plainPiece "start" (by decide) (spans_string "a" (by decide)),
  plainPiece "halt" (by decide) (spans_string "b" (by decide))]

def shortText : String := objectText (statesPiece :: otherPieces)

/-- What it is read as. -/
def shortDescription : Description where
  name := none
  states := []
  alphabet := []
  blank := "_"
  transitions := []
  start := "a"
  halt := "b"

theorem describes_shortText :
    MembersDescribe ((statesPiece :: otherPieces).map (·.member)) shortDescription where
  named := by simp [statesPiece, otherPieces, plainPiece]
  name := .inl ⟨rfl, rfl⟩
  states := ⟨_, rfl, rfl⟩
  alphabet := ⟨_, rfl, rfl⟩
  blank := ⟨_, rfl, rfl⟩
  transitions := ⟨_, rfl, rfl⟩
  start := ⟨_, rfl, rfl⟩
  halt := ⟨_, rfl, rfl⟩

/-- A member that no description asks for. -/
def notePiece : Piece := plainPiece "note" (by decide) spans_array_nil

/-- The members the other way around, one more of them in front and a blank before all. -/
def editedText : String := " " ++ objectText (notePiece :: (statesPiece :: otherPieces).reverse)

theorem edits_shortText : Relation.ReflTransGen Edit shortText editedText := by
  have hreverse : Edit shortText (objectText (statesPiece :: otherPieces).reverse) :=
    .reorder (List.reverse_perm _).symm (isObject_objectText _) (isObject_objectText _)
  have hinsert : Edit (objectText (statesPiece :: otherPieces).reverse)
      (objectText (notePiece :: (statesPiece :: otherPieces).reverse)) :=
    .insert [] _ notePiece rfl (by decide) (isObject_objectText _) (isObject_objectText _)
  have hspace : Edit (objectText (notePiece :: (statesPiece :: otherPieces).reverse)) editedText := by
    obtain ⟨ws, hws⟩ := (isObject_objectText _).isSpelled.exists_tokens
    refine .space ?_
    rw [editedText, String.toList_append]
    exact hws.sameTokens_append (by simp [Blank, isBlank])
  exact ((Relation.ReflTransGen.single hreverse).tail hinsert).tail hspace

/-- With the states twice. -/
theorem spoils_again_shortText :
    Spoils shortText (objectText (statesPiece :: statesPiece :: otherPieces)) := by
  have hname : "states" ∈ memberNames := by decide
  have hfirst : statesPiece ∈ [statesPiece] ++ otherPieces := List.mem_cons_self
  exact .again _ _ _ statesPiece hname hfirst rfl rfl (isObject_objectText _)
    (isObject_objectText _)

/-- With no states. -/
theorem spoils_remove_shortText : Spoils shortText (objectText otherPieces) := by
  have hname : "states" ∈ memberNames := by decide
  exact .remove [] otherPieces statesPiece hname (by decide) rfl (isObject_objectText _)
    (isObject_objectText _)

theorem read_of_edits_shortText :
    (∃ ms, (Value.object ms).IsSpelled shortText) ∧ read shortText = .ok shortDescription ∧
      Relation.ReflTransGen Edit shortText editedText ∧ read editedText = .ok shortDescription ∧
      Spoils shortText (objectText (statesPiece :: statesPiece :: otherPieces)) ∧
      (∃ error, read (objectText (statesPiece :: statesPiece :: otherPieces)) =
        .error (.malformedDescription (.json error))) ∧
      Spoils shortText (objectText otherPieces) ∧
      ∃ error, read (objectText otherPieces) = .error (.malformedDescription (.json error)) := by
  have hv : ∃ ms, (Value.object ms).IsSpelled shortText := ⟨_, (isObject_objectText _).isSpelled⟩
  have hd : read shortText = .ok shortDescription :=
    ((isText_iff (isObject_objectText _)).2 describes_shortText).read
  obtain ⟨-, -, hedits, hspoils⟩ := read_of_edits hv hd
  exact ⟨hv, hd, edits_shortText, hedits _ edits_shortText, spoils_again_shortText,
    hspoils _ spoils_again_shortText, spoils_remove_shortText, hspoils _ spoils_remove_shortText⟩

end Description

end TapeMachine
