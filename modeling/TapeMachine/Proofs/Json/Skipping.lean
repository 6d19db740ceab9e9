import Mathlib
import TapeMachine.Proofs.Json.Grammar
/-!
# Values that are skipped

A value of any kind and depth is passed to its end and no further: `Spells.skipValue`. What is
inside of it goes on in front of the containers that are open, so the induction is about
`skipNested` and `resume`, which is what is left to do once a value is over.
-/

namespace TapeMachine.Json

/-! ## Numbers -/

/-- Nothing of a number follows. -/
theorem Ends.not_mem {s : List Char} (h : Ends s) :
    ∀ c ∈ s.head?, isDigit c = false ∧ c ∉ ['.', 'e', 'E'] := by
  intro c hc
  rcases h c hc with hb | rfl | rfl | rfl
  · have hb : c = ' ' ∨ c = '\n' ∨ c = '\t' ∨ c = '\r' := by
      simpa only [isBlank, Bool.or_eq_true, decide_eq_true_eq, or_assoc] using hb
    rcases hb with rfl | rfl | rfl | rfl <;> decide
  all_goals decide

theorem Digits.readDigits {s rest : List Char} (h : Digits s rest)
    (hr : ∀ c ∈ rest.head?, isDigit c = false) : ∃ d ds, readDigits s = (d :: ds, rest) := by
  induction h with
  | @one c rest hc =>
    have hstop : rest.dropWhile isDigit = rest ∧ rest.takeWhile isDigit = [] := by
      cases rest with
      | nil => exact ⟨rfl, rfl⟩
      | cons d rest => simp [hr d rfl]
    refine ⟨digitValue c, [], ?_⟩
    simp [Json.readDigits, hc, hstop]
  | @more c s rest hc _ ih =>
    obtain ⟨d, ds, hs⟩ := ih hr
    refine ⟨digitValue c, d :: ds, ?_⟩
    simp only [Json.readDigits, Prod.mk.injEq] at hs
    simp [Json.readDigits, hc, hs]

theorem Digits.readPower {s rest : List Char} (h : Digits s rest)
    (hr : ∀ c ∈ rest.head?, isDigit c = false) (atEnd : Cause) (negative : Bool) :
    ∃ e, readPower atEnd negative s = .ok (e, rest) := by
  obtain ⟨d, ds, hd⟩ := h.readDigits hr
  obtain ⟨c, t, rfl, -⟩ := h.head
  exact ⟨some (negative, d :: ds), by simp [Json.readPower, hd]⟩

theorem Exponent.readExponent {s rest : List Char} (h : Exponent s rest) (hr : Ends rest)
    (atEnd : Cause) : ∃ e, readExponent atEnd s = .ok (e, rest) := by
  have hd := fun c hc => (hr.not_mem c hc).1
  cases h with
  | none =>
    refine ⟨.none, ?_⟩
    cases s with
    | nil => rfl
    | cons c s =>
      have hc := (hr.not_mem c rfl).2
      simp only [List.mem_cons, not_or] at hc
      unfold Json.readExponent
      exact if_neg (by simp [hc])
  | unsigned he h =>
    obtain ⟨c, t, rfl, hc⟩ := h.head
    unfold Json.readExponent
    simp only [if_pos he]
    -- a digit is no sign
    split
    · simp_all [isDigit]
    · simp_all [isDigit]
    · exact h.readPower hd atEnd false
  | signed he hsign h =>
    unfold Json.readExponent
    simp only [if_pos he]
    rcases hsign with rfl | rfl
    · exact h.readPower hd atEnd false
    · exact h.readPower hd atEnd true

theorem Exponent.not_mem {s rest : List Char} (h : Exponent s rest) (hr : Ends rest) :
    ∀ c ∈ s.head?, isDigit c = false ∧ c ≠ '.' := by
  intro c hc
  cases h with
  | none =>
    have hc := hr.not_mem c hc
    simp_all
  | unsigned he _ => cases hc; rcases he with rfl | rfl <;> decide
  | signed he _ _ => cases hc; rcases he with rfl | rfl <;> decide

theorem Fraction.readFraction {s rest : List Char} (h : Fraction s rest)
    (hr : ∀ c ∈ rest.head?, isDigit c = false ∧ c ≠ '.') (atEnd : Cause) :
    ∃ ds, readFraction atEnd s = .ok (ds, rest) := by
  cases h with
  | none =>
    refine ⟨.none, ?_⟩
    unfold Json.readFraction
    split
    · exact absurd rfl (hr '.' rfl).2
    · rfl
  | digits h =>
    obtain ⟨d, ds, hd⟩ := h.readDigits fun c hc => (hr c hc).1
    exact ⟨some (d :: ds), by simp [Json.readFraction, hd]⟩

theorem Fraction.not_mem {s rest : List Char} (h : Fraction s rest)
    (hr : ∀ c ∈ rest.head?, isDigit c = false ∧ c ≠ '.') : ∀ c ∈ s.head?, isDigit c = false := by
  intro c hc
  cases h with
  | none => exact (hr c hc).1
  | digits _ => cases hc; decide

theorem Whole.readWhole {s rest : List Char} (h : Whole s rest)
    (hr : ∀ c ∈ rest.head?, isDigit c = false) (atEnd : Cause) :
    ∃ ds, readWhole atEnd s = .ok (ds, rest) := by
  cases h with
  | zero =>
    refine ⟨[0], ?_⟩
    cases rest with
    | nil => rfl
    | cons c rest => simp [Json.readWhole, hr c rfl]
  | @digits c s _ hc h =>
    obtain ⟨d, ds, hd⟩ := h.readDigits hr
    obtain ⟨_, _, heq, hdigit⟩ := h.head
    cases heq
    refine ⟨d :: ds, ?_⟩
    unfold Json.readWhole
    split <;> simp_all

theorem Magnitude.readNumber {s rest : List Char} (h : Magnitude s rest) (hr : Ends rest)
    (atEnd : Cause) (negative : Bool) :
    ∃ number, readNumber atEnd negative s = .ok (number, rest) := by
  obtain ⟨hw, hf, he⟩ := h
  have hnf := he.not_mem hr
  obtain ⟨whole, hw⟩ := hw.readWhole (hf.not_mem hnf) atEnd
  obtain ⟨fraction, hf⟩ := hf.readFraction hnf atEnd
  obtain ⟨exponent, he⟩ := he.readExponent hr atEnd
  refine ⟨⟨negative, whole, fraction, exponent⟩, ?_⟩
  simp only [Json.readNumber, hw, hf, he, bind, Except.bind]
  rfl

/-! ## Strings -/

theorem CodeUnit.skipString {n : Nat} {s rest : List Char} (h : CodeUnit n s rest) :
    skipString s = skipString rest := by
  obtain ⟨hn⟩ := h
  rw [Json.skipString]
  split <;> simp_all [readHex]

theorem unescape?_ne {l c : Char} (h : unescape? l = some c) : l ≠ 'u' := by
  rintro rfl
  simp [unescape?] at h

/-- A string is passed whether or not it denotes anything. -/
theorem Chars.skipString {cs : Option (List Char)} {s rest : List Char} (h : Chars cs s rest) :
    skipString s = .ok rest := by
  induction h with
  | close => simp [Json.skipString]
  | plain hq hb hc _ ih =>
    rw [← ih, Json.skipString]
    · rw [if_neg hc]
    all_goals simp_all
  | @letter l c cs s rest hl _ ih =>
    have hu := unescape?_ne hl
    rw [← ih, Json.skipString]
    · rw [hl]
      rfl
    · simpa using hu
  | unit hn _ _ _ ih => rw [hn.skipString, ih]
  | pair hn _ hm _ _ ih => rw [hn.skipString, hm.skipString, ih]
  | lone hn _ _ ih => rw [hn.skipString, ih]

/-! ## One step of skipping -/

variable {frames : List Frame} {s t rest : List Char}

theorem skipBlanks_skipBlanks (s : List Char) : skipBlanks (skipBlanks s) = skipBlanks s :=
  List.dropWhile_idempotent isBlank s

/-- Goes on when a value inside the containers is over. -/
def resume (frames : List Frame) (s : List Char) : Except Fault (List Char) :=
  match leave frames s with
  | .error fault => .error fault
  | .ok ([], rest) => .ok rest
  | .ok (frame :: outer, rest) => skipNested (frame :: outer) rest

theorem skipNested_fault {fault : Fault} (h : enter s = .error fault) :
    skipNested frames s = .error fault := by
  rw [skipNested]
  split <;> simp_all

theorem skipNested_over (h : enter s = .ok (none, rest)) :
    skipNested frames s = resume frames rest := by
  rw [skipNested, resume]
  split <;> simp_all
  split <;> simp_all

theorem skipNested_inside {frame : Frame} (h : enter s = .ok (some frame, rest)) :
    skipNested frames s = skipNested (frame :: frames) rest := by
  rw [skipNested]
  split <;> simp_all

theorem skipNested_skipBlanks (frames : List Frame) (s : List Char) :
    skipNested frames (skipBlanks s) = skipNested frames s := by
  have he : enter (skipBlanks s) = enter s := by
    rw [enter, enter, skipBlanks_skipBlanks]
  rcases h : enter s with fault | ⟨_ | frame, rest⟩
  · rw [skipNested_fault h, skipNested_fault (he.trans h)]
  · rw [skipNested_over h, skipNested_over (he.trans h)]
  · rw [skipNested_inside h, skipNested_inside (he.trans h)]

theorem resume_array_close (h : Blanks s (']' :: rest)) :
    resume (.array :: frames) s = resume frames rest := by
  rw [resume, resume, leave, h.skipBlanks_cons rfl]
  rfl

theorem resume_array_comma (h : Blanks s (',' :: rest)) :
    resume (.array :: frames) s = skipNested (.array :: frames) rest := by
  rw [resume, leave, h.skipBlanks_cons rfl]
  rfl

theorem resume_object_close (h : Blanks s ('}' :: rest)) :
    resume (.object :: frames) s = resume frames rest := by
  rw [resume, resume, leave, h.skipBlanks_cons rfl]
  rfl

theorem resume_object_comma (h : Blanks s (',' :: t)) (hn : skipName t = .ok rest) :
    resume (.object :: frames) s = skipNested (.object :: frames) rest := by
  rw [resume, leave, h.skipBlanks_cons rfl]
  simp only [hn, bind, Except.bind]
  rfl

theorem skipName_of_chars {cs : Option (List Char)} {u : List Char} (hs : Blanks s ('"' :: t))
    (ht : Chars cs t u) (hu : Blanks u (':' :: rest)) : skipName s = .ok rest := by
  rw [skipName, hs.skipBlanks_cons rfl]
  simp only [ht.skipString, bind, Except.bind, hu.skipBlanks_cons rfl]
  rfl

theorem skipName_skipBlanks (s : List Char) : skipName (skipBlanks s) = skipName s := by
  rw [skipName, skipName, skipBlanks_skipBlanks]

theorem enter_number (hs : Blanks s t) (hn : Numeral t rest) (hr : Ends rest) :
    enter s = .ok (none, rest) := by
  cases hn with
  | positive hm =>
    obtain ⟨number, hread⟩ := hm.readNumber hr .invalidNumber false
    obtain ⟨hw, -, -⟩ := hm
    obtain ⟨c, u, rfl, hc⟩ := hw.head
    have hb := isBlank_of_isDigit hc
    unfold enter
    rw [hs.skipBlanks_cons hb]
    -- no other value begins with a digit
    split <;> simp_all [isDigit, bind, Except.bind]
    rfl
  | negative hm =>
    obtain ⟨number, hread⟩ := hm.readNumber hr .invalidNumber true
    rw [enter, hs.skipBlanks_cons rfl]
    simp only [hread, bind, Except.bind]
    rfl

theorem enter_array_close (hs : Blanks s ('[' :: t)) (ht : Blanks t (']' :: rest)) :
    enter s = .ok (none, rest) := by
  rw [enter, hs.skipBlanks_cons rfl]
  simp only [ht.skipBlanks_cons rfl]
  rfl

theorem enter_array {v : Value} (hs : Blanks s ('[' :: t)) (ht : Spells v t rest) :
    enter s = .ok (some .array, skipBlanks t) := by
  obtain ⟨c, u, hu, hc⟩ := ht.skipBlanks
  have hne := hc.not_mem
  rw [enter, hs.skipBlanks_cons rfl]
  simp only [hu]
  split <;> simp_all
  rfl

theorem enter_object_close (hs : Blanks s ('{' :: t)) (ht : Blanks t ('}' :: rest)) :
    enter s = .ok (none, rest) := by
  rw [enter, hs.skipBlanks_cons rfl]
  simp only [ht.skipBlanks_cons rfl]
  rfl

theorem enter_object {u : List Char} (hs : Blanks s ('{' :: t)) (ht : Blanks t ('"' :: u))
    (hn : skipName t = .ok rest) : enter s = .ok (some .object, rest) := by
  rw [← skipName_skipBlanks, ht.skipBlanks_cons rfl] at hn
  rw [enter, hs.skipBlanks_cons rfl]
  simp only [ht.skipBlanks_cons rfl]
  change (do return (some Frame.object, ← skipName ('"' :: u))) = _
  rw [hn]
  rfl

/-! ## All of a value -/

mutual

theorem Spells.skipNested {v : Value} {s rest : List Char} (h : Spells v s rest) (hr : Ends rest)
    (frames : List Frame) : Json.skipNested frames s = resume frames rest := by
  cases h with
  | null hs =>
    refine skipNested_over ?_
    rw [enter, hs.skipBlanks_cons rfl]
    rfl
  | wordTrue hs =>
    refine skipNested_over ?_
    rw [enter, hs.skipBlanks_cons rfl]
    rfl
  | wordFalse hs =>
    refine skipNested_over ?_
    rw [enter, hs.skipBlanks_cons rfl]
    rfl
  | number hs hn => exact skipNested_over (enter_number hs hn hr)
  | string hs ht =>
    refine skipNested_over ?_
    rw [enter, hs.skipBlanks_cons rfl]
    simp only [ht.skipString, bind, Except.bind]
    rfl
  | array hs ht =>
    cases ht with
    | close ht => exact skipNested_over (enter_array_close hs ht)
    | first hv hvs =>
      rw [skipNested_inside (enter_array hs hv), skipNested_skipBlanks,
        hv.skipNested hvs.ends, hvs.resume hr]
  | object hs ht =>
    cases ht with
    | close ht => exact skipNested_over (enter_object_close hs ht)
    | first hm hms =>
      obtain ⟨ht, hcs, hu, hv⟩ := hm
      rw [skipNested_inside (enter_object hs ht (skipName_of_chars ht hcs hu)),
        hv.skipNested hms.ends, hms.resume hr]

theorem SpellsElements.resume {vs : List Value} {s rest : List Char}
    (h : SpellsElements false vs s rest) (hr : Ends rest) (frames : List Frame) :
    Json.resume (.array :: frames) s = Json.resume frames rest := by
  cases h with
  | close hs => exact resume_array_close hs
  | next hs hv hvs =>
    rw [resume_array_comma hs, hv.skipNested hvs.ends, hvs.resume hr]

theorem SpellsMembers.resume {ms : List Value.Member} {s rest : List Char}
    (h : SpellsMembers false ms s rest) (hr : Ends rest) (frames : List Frame) :
    Json.resume (.object :: frames) s = Json.resume frames rest := by
  cases h with
  | close hs => exact resume_object_close hs
  | next hs hm hms =>
    obtain ⟨ht, hcs, hu, hv⟩ := hm
    rw [resume_object_comma hs (skipName_of_chars ht hcs hu), hv.skipNested hms.ends,
      hms.resume hr]

end

/-- A value is skipped to its end. -/
theorem Spells.skipValue {v : Value} (h : Spells v s rest) (hr : Ends rest) :
    skipValue s = .ok rest := by
  rw [Json.skipValue, h.skipNested hr]
  rfl

end TapeMachine.Json
