import Mathlib
import TapeMachine.Proofs.Json.Tokens
/-!
# The members of an object as they are written

An object is written as its members with commas between them, in braces. `IsObject pieces text` says
so of a text and the texts of the members, the blanks around a member being a part of its text. The
pieces can be put into another order, taken out or added, and the text is an object with the members
of these pieces: `IsObject.isSpelled`. Every object is written so: `Value.IsSpelled.exists_pieces`.
-/

namespace TapeMachine.Json

/-- A member as it is written, with the blanks around it. -/
structure Piece where
  chars : List Char
  member : Value.Member
  spelled : ∃ b, SpellsMember member chars b ∧ Blank b

/-- The text is the object of these pieces. -/
def IsObject (pieces : List Piece) (text : String) : Prop :=
  ∃ rest back, Blanks text.toList ('{' :: ([','].intercalate (pieces.map (·.chars)) ++ rest)) ∧
    Blanks rest ('}' :: back) ∧ Blank back

/-- The pieces as they follow others. -/
def followers (pieces : List Piece) : List Char := pieces.flatMap fun piece => ',' :: piece.chars

theorem intercalate_chars (piece : Piece) (pieces : List Piece) :
    [','].intercalate ((piece :: pieces).map (·.chars)) = piece.chars ++ followers pieces := by
  induction pieces generalizing piece with
  | nil => simp [followers]
  | cons next pieces ih =>
    rw [List.map_cons, List.map_cons, List.intercalate_cons_cons, ← List.map_cons, ih]
    simp [followers]

/-! ## From pieces to members -/

/-- A member is spelled up to the blanks behind it. -/
theorem Piece.spells (piece : Piece) (s : List Char) :
    ∃ b, Blank b ∧ SpellsMember piece.member (piece.chars ++ s) (b ++ s) := by
  obtain ⟨b, hm, hb⟩ := piece.spelled
  obtain ⟨w, hw, hspans⟩ := hm.exists_spans
  refine ⟨b, hb, ?_⟩
  rw [hw, List.append_assoc]
  exact hspans (b ++ s)

variable {pieces : List Piece} {text : String}

theorem spellsMembers_followers {rest back : List Char} (h : Blanks rest ('}' :: back))
    (pieces : List Piece) {b : List Char} (hb : Blank b) :
    SpellsMembers false (pieces.map (·.member)) (b ++ (followers pieces ++ rest)) back := by
  induction pieces generalizing b with
  | nil => exact .close (h.append hb)
  | cons piece pieces ih =>
    obtain ⟨d, hd, hm⟩ := piece.spells (followers pieces ++ rest)
    have hs : Blanks (b ++ (followers (piece :: pieces) ++ rest))
        (',' :: (piece.chars ++ (followers pieces ++ rest))) := ⟨b, hb, by simp [followers]⟩
    exact .next hs hm (ih hd)

theorem IsObject.isSpelled (h : IsObject pieces text) :
    (Value.object (pieces.map (·.member))).IsSpelled text := by
  obtain ⟨rest, back, hopen, hclose, hback⟩ := h
  refine ⟨back, .object hopen ?_, back, hback, (List.append_nil back).symm⟩
  cases pieces with
  | nil => exact .close hclose
  | cons piece pieces =>
    obtain ⟨b, hb, hm⟩ := piece.spells (followers pieces ++ rest)
    rw [intercalate_chars, List.append_assoc]
    exact .first hm (spellsMembers_followers hclose pieces hb)

/-- The object of the pieces without any blanks but theirs. -/
def objectText (pieces : List Piece) : String :=
  String.ofList ('{' :: ([','].intercalate (pieces.map (·.chars)) ++ ['}']))

theorem isObject_objectText (pieces : List Piece) : IsObject pieces (objectText pieces) :=
  ⟨['}'], [], ⟨[], blank_nil, by simp [objectText]⟩, .refl _, blank_nil⟩

/-! ## From members to pieces -/

theorem SpellsMember.exists_piece {m : Value.Member} {s b t : List Char}
    (h : SpellsMember m s (b ++ t)) (hb : Blank b) :
    ∃ piece : Piece, piece.member = m ∧ s = piece.chars ++ t := by
  obtain ⟨w, rfl, hw⟩ := h.exists_spans
  exact ⟨⟨w ++ b, m, b, hw b, hb⟩, rfl, by simp⟩

theorem SpellsMembers.exists_followers {ms : List Value.Member} {s back : List Char}
    (h : SpellsMembers false ms s back) :
    ∃ pieces : List Piece, pieces.map (·.member) = ms ∧ ∃ b rest, Blank b ∧
      s = b ++ (followers pieces ++ rest) ∧ Blanks rest ('}' :: back) := by
  induction ms generalizing s with
  | nil =>
    cases h with
    | close hs => exact ⟨[], rfl, [], s, blank_nil, rfl, hs⟩
  | cons m ms ih =>
    cases h with
    | next hs hm hms =>
      obtain ⟨pieces, rfl, d, rest, hd, rfl, hrest⟩ := ih hms
      obtain ⟨piece, rfl, rfl⟩ := hm.exists_piece hd
      obtain ⟨b, hb, rfl⟩ := hs
      exact ⟨piece :: pieces, rfl, b, rest, hb, by simp [followers], hrest⟩

/-- Every object is written as its members. -/
theorem Value.IsSpelled.exists_pieces {ms : List Value.Member} (h : (object ms).IsSpelled text) :
    ∃ pieces : List Piece, pieces.map (·.member) = ms ∧ IsObject pieces text := by
  obtain ⟨back, hv, hback⟩ := h
  cases hv with
  | object hopen hms =>
    cases hms with
    | close hclose => exact ⟨[], rfl, _, back, hopen, hclose, hback.blank⟩
    | first hm hms =>
      obtain ⟨pieces, rfl, d, rest, hd, rfl, hrest⟩ := hms.exists_followers
      obtain ⟨piece, rfl, rfl⟩ := hm.exists_piece hd
      refine ⟨piece :: pieces, rfl, rest, back, ?_, hrest, hback.blank⟩
      rwa [intercalate_chars, List.append_assoc]

end TapeMachine.Json
