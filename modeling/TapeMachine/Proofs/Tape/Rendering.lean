import Mathlib
import TapeMachine.Proofs.Tape.Observers
import TapeMachine.Proofs.Tape.Text
import TapeMachine.Proofs.Textbook
/-!
# Rendering and writing a text

What is rendered of a tape stands on it with blanks around it and none at its ends, and there is no
other such text: `exists_holds_render`, `Holds.render`. So a text that is put on a tape is rendered
without the blanks around it, a rendered text that is put on a tape reads as the first tape does from
its first bound on, and two tapes are rendered alike exactly if one of them is the other one, moved:
`render_eq_iff_isMoved`.
-/

namespace TapeMachine.Tape

variable {t u : Tape} {first : Int} {lo hi p q : Position} {text : List Symbol} {b : Symbol} {i : Nat}

/-! ## Texts without blanks around them -/

/-- Neither the first nor the last symbol of the text is the blank. -/
structure IsTrimmed (b : Symbol) (text : List Symbol) : Prop where
  head : ∀ c ∈ text.head?, c ≠ b
  getLast : ∀ c ∈ text.getLast?, c ≠ b

/-- The text without the blanks that it begins and ends with. -/
def trim (b : Symbol) (text : List Symbol) : List Symbol :=
  (text.dropWhile (· = b)).rdropWhile (· = b)

theorem isTrimmed_trim (b : Symbol) (text : List Symbol) : IsTrimmed b (trim b text) where
  head c hc := by
    obtain ⟨after, hafter⟩ := List.rdropWhile_prefix (· = b) (text.dropWhile (· = b))
    have hhead := List.head?_dropWhile_not (· = b) text
    have hfirst : (text.dropWhile (· = b)).head? = some c := by
      rw [← hafter, List.head?_append]
      exact Option.or_eq_some_iff.2 (.inl hc)
    rw [hfirst] at hhead
    simpa using hhead
  getLast c hc := by
    have hne : trim b text ≠ [] := by
      rintro hnil
      rw [hnil] at hc
      cases hc
    have hlast := List.rdropWhile_last_not (· = b) (text.dropWhile (· = b)) hne
    rw [List.getLast?_eq_some_getLast hne] at hc
    cases hc
    exact of_decide_eq_false (Bool.eq_false_iff.2 hlast)

theorem length_takeWhile_add_length_trim (b : Symbol) (text : List Symbol) :
    (text.takeWhile (· = b)).length + (trim b text).length ≤ text.length := by
  have hle := (List.rdropWhile_prefix (· = b) (text.dropWhile (· = b))).length_le
  have hsum := congrArg List.length (List.takeWhile_append_dropWhile (p := (· = b)) (l := text))
  rw [List.length_append] at hsum
  unfold trim
  omega

/-! ## Moving the ends of a text -/

theorem Holds.dropWhile (h : t.Holds first text) :
    t.Holds (first + (text.takeWhile (· = t.blank)).length) (text.dropWhile (· = t.blank)) := by
  induction text generalizing first with
  | nil => simpa using h
  | cons c text ih =>
    by_cases hc : c = t.blank
    · subst hc
      have hholds : t.Holds (first + 1) text := holds_cons_blank.1 (by simpa using h)
      have hrest := ih hholds
      have hsum : first + 1 + ((text.takeWhile (· = t.blank)).length : Int) =
        first + ((text.takeWhile (· = t.blank)).length + 1 : Nat) := by omega
      simpa [hsum] using hrest
    · simpa [hc] using h

theorem Holds.rdropWhile (h : t.Holds first text) :
    t.Holds first (text.rdropWhile (· = t.blank)) := by
  induction text using List.reverseRecOn with
  | nil => exact h
  | append_singleton text c ih =>
    by_cases hc : c = t.blank
    · rw [List.rdropWhile_concat_pos _ _ _ (by simpa using hc)]
      rw [hc] at h
      exact ih (holds_append_blank.1 h)
    · rwa [List.rdropWhile_concat_neg _ _ _ (by simpa using hc)]

theorem Holds.trim (h : t.Holds first text) :
    t.Holds (first + (text.takeWhile (· = t.blank)).length) (trim t.blank text) :=
  h.dropWhile.rdropWhile

/-- A text is rendered without the blanks around it. -/
theorem render_ofString {text : String} (h : text.length ≤ 2 ^ 63) (b : Symbol) :
    (ofString text b).render = String.ofList (trim b text.toList) := by
  have htrim := (holds_ofString text b).trim
  rw [blank_ofString] at htrim
  have hlength := length_takeWhile_add_length_trim b text.toList
  have htext : text.toList.length = text.length := String.length_toList
  have hends := isTrimmed_trim b text.toList
  refine htrim.render (by omega) (by omega) ?_ ?_
  · rw [blank_ofString]
    exact hends.head
  · rw [blank_ofString]
    exact hends.getLast

/-! ## What is rendered -/

theorem span_of_le (h : lo ≤ hi) : (span lo hi : Int) = hi.toInt - lo.toInt + 1 := by
  have := Int64.le_iff_toInt_le.1 h
  unfold span
  omega

theorem toInt_add_ofNat (h : i < span lo hi) : (lo + Int64.ofNat i).toInt = lo.toInt + i := by
  have hlo := lo.le_toInt
  have hhi := hi.toInt_lt
  rw [← Int64.ofInt_eq_ofNat, ← Int64.ofInt_toInt (x := lo), ← Int64.ofInt_add,
    toInt_ofInt_of_mem (by omega) (by unfold span at h; omega), Int64.ofInt_toInt]

theorem le_of_bounds? (h : t.bounds? = some (lo, hi)) : lo ≤ hi := by
  obtain ⟨-, hhi, hall⟩ := bounds?_eq_some_iff.1 h
  exact (hall hi hhi).1

theorem toList_render (h : t.bounds? = some (lo, hi)) :
    t.render.toList = t.window lo (span lo hi) := by
  rw [render, h, String.toList_ofList]

theorem getElem?_render (h : t.bounds? = some (lo, hi)) (hp : p.toInt = lo.toInt + i) (hle : p ≤ hi) :
    t.render.toList[i]? = some (t.read p) := by
  have hspan := span_of_le (le_of_bounds? h)
  have hle := Int64.le_iff_toInt_le.1 hle
  have hi : i < span lo hi := by omega
  have heq : lo + Int64.ofNat i = p := by rw [← Int64.toInt_inj, toInt_add_ofNat hi, hp]
  rw [toList_render h, window, List.getElem?_map, List.getElem?_range hi, Option.map_some, heq]

theorem length_render (h : t.bounds? = some (lo, hi)) : t.render.toList.length = span lo hi := by
  rw [toList_render h, window, List.length_map, List.length_range]

/-- The rendered text stands on the tape from the first bound on. -/
theorem holds_render (h : t.bounds? = some (lo, hi)) : t.Holds lo.toInt t.render.toList := by
  obtain ⟨-, -, hall⟩ := bounds?_eq_some_iff.1 h
  -- outside of the bounds no cell is set
  have hout (p : Position) (hp : ¬ (lo ≤ p ∧ p ≤ hi)) : t.read p = t.blank := by
    have hset := mt (hall p) hp
    rwa [isSet_iff, not_not] at hset
  constructor
  · intro p hp
    refine hout p fun hle => ?_
    have := Int64.le_iff_toInt_le.1 hle.1
    omega
  · intro p i hp
    by_cases hle : p ≤ hi
    · rw [getElem?_render h hp hle, Option.getD_some]
    · rw [hout p fun hmem => hle hmem.2, List.getElem?_eq_none, Option.getD_none]
      have hspan := span_of_le (le_of_bounds? h)
      have hlt := mt Int64.le_iff_toInt_le.2 hle
      rw [length_render h]
      omega

theorem head?_render (h : t.bounds? = some (lo, hi)) :
    t.render.toList.head? = some (t.read lo) := by
  rw [List.head?_eq_getElem?]
  exact getElem?_render h (by simp) (le_of_bounds? h)

theorem getLast?_render (h : t.bounds? = some (lo, hi)) :
    t.render.toList.getLast? = some (t.read hi) := by
  have hspan := span_of_le (le_of_bounds? h)
  have hle := Int64.le_iff_toInt_le.1 (le_of_bounds? h)
  rw [List.getLast?_eq_getElem?, length_render h]
  exact getElem?_render h (by omega) (Int64.le_refl hi)

/-- Whatever stands on a tape, there is a text that fits on it and that is all of it. -/
theorem exists_holds_render (t : Tape) :
    ∃ first : Int, -2 ^ 63 ≤ first ∧ first + t.render.toList.length ≤ 2 ^ 63 ∧
      t.Holds first t.render.toList ∧ IsTrimmed t.blank t.render.toList := by
  cases hb : t.bounds? with
  | none =>
    have hempty := render_eq_empty_iff.2 hb
    have hset := bounds?_eq_none_iff.1 hb
    have hblank (p : Position) : t.read p = t.blank := by
      have hp := hset p
      rwa [isSet_iff, not_not] at hp
    rw [hempty]
    exact ⟨0, by simp, by simp, ⟨fun p _ => hblank p, fun p _ _ => hblank p⟩, by simp, by simp⟩
  | some bounds =>
    obtain ⟨lo, hi⟩ := bounds
    obtain ⟨hlo, hhi, -⟩ := bounds?_eq_some_iff.1 hb
    rw [isSet_iff] at hlo hhi
    refine ⟨lo.toInt, lo.le_toInt, ?_, holds_render hb, ?_, ?_⟩
    · have := span_of_le (le_of_bounds? hb)
      have := hi.toInt_lt
      rw [length_render hb]
      omega
    · rw [head?_render hb]
      rintro c ⟨⟩
      exact hlo
    · rw [getLast?_render hb]
      rintro c ⟨⟩
      exact hhi

/-- The same text on two tapes reads the same, wherever it begins. -/
theorem Holds.read_eq_read {first' : Int} (h : t.Holds first text) (h' : u.Holds first' text)
    (hb : u.blank = t.blank) (hpq : q.toInt - first' = p.toInt - first) : u.read q = t.read p := by
  rcases lt_or_ge p.toInt first with hp | hp
  · rw [h.before p hp, h'.before q (by omega), hb]
  · obtain ⟨i, hi⟩ := Int.eq_ofNat_of_zero_le (sub_nonneg.2 hp)
    rw [h.since p i (by omega), h'.since q i (by omega), hb]

/-! ## Tapes that are moved -/

/-- What is on the first tape is on the second one, too, some cells further on, and nothing else. -/
def IsMoved (t u : Tape) : Prop := ∃ distance : Int, ∀ i, u.contents (i + distance) = t.contents i

theorem contents_of_not_mem {i : Int} (h : ¬ (-2 ^ 63 ≤ i ∧ i < 2 ^ 63)) : t.contents i = t.blank :=
  if_neg h

theorem Holds.contents (h : t.Holds first text) (hl : -2 ^ 63 ≤ first)
    (hu : first + text.length ≤ 2 ^ 63) (i : Int) :
    t.contents i = if first ≤ i then text[(i - first).toNat]?.getD t.blank else t.blank := by
  by_cases hi : -2 ^ 63 ≤ i ∧ i < 2 ^ 63
  · have hp := toInt_ofInt_of_mem hi.1 hi.2
    rw [Tape.contents, if_pos hi]
    split
    · exact h.since _ _ (by omega)
    · exact h.before _ (by omega)
  · -- there are no positions so far out, and nothing of the text
    rw [contents_of_not_mem hi]
    split
    · rw [List.getElem?_eq_none (by omega), Option.getD_none]
    · rfl

theorem mem_of_contents_ne {i : Int} (h : t.contents i ≠ t.blank) : -2 ^ 63 ≤ i ∧ i < 2 ^ 63 :=
  not_imp_comm.1 contents_of_not_mem h

/-- At both ends of the text something is set. -/
theorem Holds.contents_ne (h : t.Holds first text) (hl : -2 ^ 63 ≤ first)
    (hu : first + text.length ≤ 2 ^ 63) (hends : IsTrimmed t.blank text) (hne : text ≠ []) :
    t.contents first ≠ t.blank ∧ t.contents (first + text.length - 1) ≠ t.blank := by
  have hpos := List.length_pos_iff.2 hne
  have hlast : (first + text.length - 1 - first).toNat = text.length - 1 := by omega
  constructor
  · rw [h.contents hl hu, if_pos le_rfl, Int.sub_self]
    refine hends.head _ ?_
    simp [List.head?_eq_getElem?, hpos]
  · rw [h.contents hl hu, if_pos (by omega), hlast]
    refine hends.getLast _ ?_
    simp [List.getLast?_eq_getElem?, hpos]

/-- Tapes of one blank are rendered alike if and only if one is the other one, moved. -/
theorem render_eq_iff_isMoved (hb : t.blank = u.blank) : t.render = u.render ↔ t.IsMoved u := by
  obtain ⟨first, hl, hu, ht, hends⟩ := t.exists_holds_render
  constructor
  · intro hr
    obtain ⟨first', hl', hu', hu'', -⟩ := u.exists_holds_render
    rw [← hr] at hu' hu''
    refine ⟨first' - first, fun i => ?_⟩
    have hi : i + (first' - first) - first' = i - first := by omega
    have hle : first' ≤ i + (first' - first) ↔ first ≤ i := by omega
    simp only [ht.contents hl hu, hu''.contents hl' hu', hi, hle, hb]
  · rintro ⟨distance, hmoved⟩
    have hread (p : Position) : u.read p = t.contents (p.toInt - distance) := by
      rw [← hmoved, sub_add_cancel, contents_toInt]
    have hholds : u.Holds (first + distance) t.render.toList := by
      constructor
      · intro p hp
        rw [hread, ht.contents hl hu, if_neg (by omega), hb]
      · intro p i hp
        have hi : (p.toInt - distance - first).toNat = i := by omega
        rw [hread, ht.contents hl hu, if_pos (by omega), hi, hb]
    by_cases hne : t.render.toList = []
    · rw [hne] at hholds
      rw [hholds.render_nil, ← String.toList_inj, hne, String.toList_empty]
    · obtain ⟨hfirst, hlast⟩ := ht.contents_ne hl hu hends hne
      rw [← hmoved, hb] at hfirst hlast
      have hl' := (mem_of_contents_ne hfirst).1
      have hu' := (mem_of_contents_ne hlast).2
      have hrender := hholds.render hl' (by omega) (hb ▸ hends.head) (hb ▸ hends.getLast)
      rw [hrender, String.ofList_toList]

/-! ## Rendering and putting on a tape -/

/-- What is rendered of a tape is what stands between its bounds, and put on a tape it reads as the
first tape does from there on. -/
structure RendersBetween (t : Tape) (lo hi : Position) : Prop where
  length : (t.render.length : Int) = hi.toInt - lo.toInt + 1
  getElem? : ∀ (p : Position) (i : Nat), p.toInt = lo.toInt + i → p ≤ hi →
    t.render.toList[i]? = some (t.read p)
  head : ∃ s, t.render.toList.head? = some s ∧ s ≠ t.blank
  getLast : ∃ s, t.render.toList.getLast? = some s ∧ s ≠ t.blank
  read_ofString : ∀ p q : Position, q.toInt = p.toInt + lo.toInt →
    (ofString t.render t.blank).read p = t.read q

theorem rendersBetween_of_bounds? (h : t.bounds? = some (lo, hi)) : t.RendersBetween lo hi where
  length := by
    rw [← String.length_toList, length_render h, span_of_le (le_of_bounds? h)]
  getElem? _ _ := getElem?_render h
  head := ⟨_, head?_render h, (isSet_iff t lo).1 (bounds?_eq_some_iff.1 h).1⟩
  getLast := ⟨_, getLast?_render h, (isSet_iff t hi).1 (bounds?_eq_some_iff.1 h).2.1⟩
  read_ofString p q hq :=
    (holds_render h).read_eq_read (holds_ofString t.render t.blank) (blank_ofString ..) (by omega)

/-- Rendering and putting on a tape are inverse to each other but for blanks and for where a tape
begins. A text has to have a position for each of its symbols, as every text has that fits into an
address space of 64 bits. -/
theorem renders_inversely (t u : Tape) (text : String) (b : Symbol) (h : text.length ≤ 2 ^ 63) :
    (ofString text b).render = String.ofList (trim b text.toList) ∧
      (∀ lo hi, t.bounds? = some (lo, hi) → t.RendersBetween lo hi) ∧
      (t.blank = u.blank → (t.render = u.render ↔ t.IsMoved u)) :=
  ⟨render_ofString h b, fun _ _ => rendersBetween_of_bounds?, render_eq_iff_isMoved⟩

/-- Two letters to the left of position 0, with a gap between them. -/
def gap : Tape := ((empty '_').write (-7) 'a').write (-5) 'b'

theorem bounds?_gap : gap.bounds? = some (-7, -5) := by
  have hset (p : Position) : gap.isSet p ↔ p = -5 ∨ p = -7 := by
    rw [isSet_iff, gap, read_write, read_write]
    split
    · simp [*]
    · split <;> simp [*]
  refine bounds?_eq_some_iff.2 ⟨(hset _).2 (.inr rfl), (hset _).2 (.inl rfl), fun p hp => ?_⟩
  rcases (hset p).1 hp with rfl | rfl <;> decide

/-- The gap is rendered, and the blanks on either side are not. -/
theorem renders_inversely_gap :
    "__a_b_".length ≤ 2 ^ 63 ∧ gap.bounds? = some (-7, -5) ∧
      gap.blank = (ofString "__a_b_" '_').blank ∧ (ofString "__a_b_" '_').render = "a_b" ∧
      gap.RendersBetween (-7) (-5) ∧ gap.IsMoved (ofString "__a_b_" '_') := by
  have hlength : "__a_b_".length ≤ 2 ^ 63 := by
    have : "__a_b_".length = 6 := rfl
    omega
  have hbounds := bounds?_gap
  have hblank : gap.blank = (ofString "__a_b_" '_').blank := (blank_ofString ..).symm
  obtain ⟨htext, hbetween, hmoved⟩ :=
    renders_inversely gap (ofString "__a_b_" '_') "__a_b_" '_' hlength
  have htrim : String.ofList (trim '_' "__a_b_".toList) = "a_b" := rfl
  have hrender : gap.render = "a_b" := by
    rw [← String.toList_inj, toList_render hbounds]
    rfl
  exact ⟨hlength, hbounds, hblank, htext.trans htrim, hbetween _ _ hbounds,
    (hmoved hblank).1 (hrender.trans (htext.trans htrim).symm)⟩

end TapeMachine.Tape
