import Mathlib
import TapeMachine.Proofs.Tape.Extent
/-!
# Texts on tapes

A tape holds a text if that is all that stands on it: the characters next to each other, and blanks
elsewhere (`Holds`). How far the text goes on either side is a matter of blanks: `holds_cons_blank`,
`holds_append_blank`. If it begins and ends with other symbols, it is what is rendered:
`Holds.render`.
-/

namespace TapeMachine.Tape

variable {t : Tape} {first : Int} {text left right : List Symbol} {c : Symbol} {p : Position}

/-- The text stands on the tape from `first` on, as far as there are positions for it, and all other
cells are blank. -/
structure Holds (t : Tape) (first : Int) (text : List Symbol) : Prop where
  before : ∀ p : Position, p.toInt < first → t.read p = t.blank
  since : ∀ (p : Position) (i : Nat), p.toInt = first + i → t.read p = text[i]?.getD t.blank

theorem holds_ofString (input : String) (b : Symbol) : (ofString input b).Holds 0 input.toList where
  before p hp := by
    rw [read_ofString, charAt?, if_neg (by omega), blank_ofString]
    rfl
  since p i hp := by
    have hi : (p.toInt - (0 : Nat)).toNat = i := by omega
    rw [read_ofString, charAt?, if_pos (by omega), hi, blank_ofString]

theorem Holds.read (h : t.Holds first (left ++ c :: right)) (hp : p.toInt = first + left.length) :
    t.read p = c := by
  rw [h.since p _ hp]
  simp

theorem Holds.write (h : t.Holds first (left ++ c :: right)) (hp : p.toInt = first + left.length)
    (s : Symbol) : (t.write p s).Holds first (left ++ s :: right) where
  before q hq := by
    have hne : q ≠ p := by
      rintro rfl
      omega
    rw [read_write_of_ne t s hne, blank_write]
    exact h.before q hq
  since q i hq := by
    rw [read_write, blank_write]
    by_cases hi : i = left.length
    · have heq : q = p := by rw [← Int64.toInt_inj, hq, hp, hi]
      simp [heq, hi]
    · have hne : q ≠ p := by
        rintro rfl
        omega
      rw [if_neg hne, h.since q i hq]
      -- on either side of the cell the texts are the same
      rcases Nat.lt_or_gt_of_ne hi with hlt | hgt
      · rw [List.getElem?_append_left hlt, List.getElem?_append_left hlt]
      · obtain ⟨k, rfl⟩ := Nat.exists_eq_add_of_lt hgt
        rw [List.getElem?_append_right (by omega), List.getElem?_append_right (by omega)]
        simp [Nat.add_assoc]

/-! ## Blanks on either side -/

theorem holds_append_blank : t.Holds first (text ++ [t.blank]) ↔ t.Holds first text := by
  have hget (i : Nat) : (text ++ [t.blank])[i]?.getD t.blank = text[i]?.getD t.blank := by
    rcases lt_trichotomy i text.length with h | h | h
    · rw [List.getElem?_append_left h]
    · simp [h]
    · rw [List.getElem?_eq_none (by simp; omega), List.getElem?_eq_none h.le]
  constructor <;> rintro ⟨hbefore, hsince⟩ <;> refine ⟨hbefore, fun p i hp => ?_⟩
  · rw [hsince p i hp, hget]
  · rw [hsince p i hp, hget]

theorem holds_cons_blank : t.Holds (first - 1) (t.blank :: text) ↔ t.Holds first text := by
  constructor <;> rintro ⟨hbefore, hsince⟩
  · constructor
    · intro p hp
      by_cases h : p.toInt = first - 1
      · exact hsince p 0 (by omega)
      · exact hbefore p (by omega)
    · intro p i hp
      rw [hsince p (i + 1) (by omega), List.getElem?_cons_succ]
  · constructor
    · exact fun p hp => hbefore p (by omega)
    · intro p i hp
      cases i with
      | zero => exact hbefore p (by omega)
      | succ i => rw [List.getElem?_cons_succ, hsince p i (by omega)]

/-! ## Rendering -/

theorem toInt_ofInt_of_mem {i : Int} (hl : -2 ^ 63 ≤ i) (hu : i < 2 ^ 63) :
    (Int64.ofInt i).toInt = i :=
  Int64.toInt_ofInt_of_le (by simpa using hl) (by simpa using hu)

/-- The cells of the text, from the first to the last. -/
theorem Holds.window (h : t.Holds first text) (hl : -2 ^ 63 ≤ first)
    (hu : first + text.length ≤ 2 ^ 63) : t.window (.ofInt first) text.length = text := by
  refine List.ext_getElem (by simp [Tape.window]) fun i hi _ => ?_
  have hi : i < text.length := by simpa [Tape.window] using hi
  have hp : (Int64.ofInt first + Int64.ofNat i).toInt = first + i := by
    rw [← Int64.ofInt_eq_ofNat, ← Int64.ofInt_add, toInt_ofInt_of_mem (by omega) (by omega)]
  simp [Tape.window, h.since _ i hp, hi]

/-- Only cells of the text can be set. -/
theorem Holds.exists_of_isSet (h : t.Holds first text) (hp : t.isSet p) :
    ∃ i < text.length, p.toInt = first + i := by
  rw [isSet_iff] at hp
  have hle : first ≤ p.toInt := not_lt.1 fun hlt => hp (h.before p hlt)
  obtain ⟨i, hi⟩ := Int.eq_ofNat_of_zero_le (sub_nonneg.2 hle)
  have hi : p.toInt = first + i := by omega
  refine ⟨i, not_le.1 fun hge => hp ?_, hi⟩
  rw [h.since p i hi, List.getElem?_eq_none hge]
  rfl

/-- A text with symbols other than blanks at both ends is as long as what is set on the tape. -/
theorem Holds.bounds? (h : t.Holds first text) (hl : -2 ^ 63 ≤ first)
    (hu : first + text.length ≤ 2 ^ 63) (hne : text ≠ []) (hhead : ∀ c ∈ text.head?, c ≠ t.blank)
    (hlast : ∀ c ∈ text.getLast?, c ≠ t.blank) :
    t.bounds? = some (.ofInt first, .ofInt (first + text.length - 1)) := by
  have hpos := List.length_pos_iff.2 hne
  have hlow := toInt_ofInt_of_mem hl (by omega)
  have hhigh := toInt_ofInt_of_mem (i := first + text.length - 1) (by omega) (by omega)
  refine bounds?_eq_some_iff.2 ⟨?_, ?_, fun p hp => ?_⟩
  · rw [isSet_iff, h.since _ 0 (by omega), List.getElem?_eq_getElem hpos]
    exact hhead _ (by simp [List.head?_eq_getElem?, hpos])
  · have hend : text.length - 1 < text.length := by omega
    rw [isSet_iff, h.since _ (text.length - 1) (by omega), List.getElem?_eq_getElem hend]
    exact hlast _ (by simp [List.getLast?_eq_getElem?, hend])
  · obtain ⟨i, hi, hp⟩ := h.exists_of_isSet hp
    rw [Int64.le_iff_toInt_le, Int64.le_iff_toInt_le, hlow, hhigh]
    omega

theorem Holds.isBlank (h : t.Holds first []) : t.isBlank := by
  rw [isBlank_iff]
  intro p hp
  obtain ⟨i, hi, -⟩ := h.exists_of_isSet hp
  simp at hi

theorem Holds.render_nil (h : t.Holds first []) : t.render = "" := by
  rw [Tape.render, bounds?_eq_none_iff.2 (isBlank_iff.1 h.isBlank)]

/-- What is rendered is the text, if neither end of it is a blank. -/
theorem Holds.render (h : t.Holds first text) (hl : -2 ^ 63 ≤ first)
    (hu : first + text.length ≤ 2 ^ 63) (hhead : ∀ c ∈ text.head?, c ≠ t.blank)
    (hlast : ∀ c ∈ text.getLast?, c ≠ t.blank) : t.render = String.ofList text := by
  by_cases hne : text = []
  · subst hne
    exact h.render_nil
  · have hpos := List.length_pos_iff.2 hne
    have hspan : span (.ofInt first) (.ofInt (first + text.length - 1)) = text.length := by
      rw [span, toInt_ofInt_of_mem hl (by omega), toInt_ofInt_of_mem (by omega) (by omega)]
      omega
    rw [Tape.render, h.bounds? hl hu hne hhead hlast]
    simp only [hspan, h.window hl hu]

theorem Holds.render_of_forall_ne (h : t.Holds first text) (hl : -2 ^ 63 ≤ first)
    (hu : first + text.length ≤ 2 ^ 63) (hne : ∀ c ∈ text, c ≠ t.blank) :
    t.render = String.ofList text :=
  h.render hl hu (fun c hc => hne c (List.mem_of_mem_head? hc))
    fun c hc => hne c (List.mem_of_getLast? hc)

end TapeMachine.Tape
