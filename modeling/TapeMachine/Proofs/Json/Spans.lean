import Mathlib
import TapeMachine.Proofs.Json.Skipping
/-!
# The text of a value by itself

A text that begins with a value is the text of the value in front of what is left, and it would be
the same value in front of anything else: `Spells.exists_spans`, and the like for all that values are
made of. A number can be taken for less than all of its digits, which is why this says that there is
such a text and not that it is the longest.
-/

namespace TapeMachine.Json

/-- The text is of this kind, whatever follows it. -/
def Spans (P : List Char → List Char → Prop) (w : List Char) : Prop := ∀ rest, P (w ++ rest) rest

theorem Spans.whole {P : List Char → List Char → Prop} {w : List Char} (h : Spans P w) : P w [] := by
  simpa using h []

/-! ## Numbers -/

theorem Digits.exists_spans {s rest : List Char} (h : Digits s rest) :
    ∃ w, s = w ++ rest ∧ Spans Digits w := by
  induction h with
  | @one c rest hc => exact ⟨[c], rfl, fun _ => .one hc⟩
  | @more c s rest hc _ ih =>
    obtain ⟨w, rfl, hw⟩ := ih
    exact ⟨c :: w, rfl, fun r => .more hc (hw r)⟩

theorem Whole.exists_spans {s rest : List Char} (h : Whole s rest) :
    ∃ w, s = w ++ rest ∧ Spans Whole w := by
  cases h with
  | zero => exact ⟨['0'], rfl, fun _ => .zero⟩
  | @digits c s _ hc h =>
    obtain ⟨w, heq, hw⟩ := h.exists_spans
    obtain ⟨d, t, rfl, -⟩ := hw.whole.head
    cases heq
    exact ⟨c :: t, rfl, fun r => .digits hc (hw r)⟩

theorem Fraction.exists_spans {s rest : List Char} (h : Fraction s rest) :
    ∃ w, s = w ++ rest ∧ Spans Fraction w := by
  cases h with
  | none => exact ⟨[], rfl, fun _ => .none⟩
  | digits h =>
    obtain ⟨w, rfl, hw⟩ := h.exists_spans
    exact ⟨'.' :: w, rfl, fun r => .digits (hw r)⟩

theorem Exponent.exists_spans {s rest : List Char} (h : Exponent s rest) :
    ∃ w, s = w ++ rest ∧ Spans Exponent w := by
  cases h with
  | none => exact ⟨[], rfl, fun _ => .none⟩
  | @unsigned e _ _ he h =>
    obtain ⟨w, rfl, hw⟩ := h.exists_spans
    exact ⟨e :: w, rfl, fun r => .unsigned he (hw r)⟩
  | @signed e sign _ _ he hsign h =>
    obtain ⟨w, rfl, hw⟩ := h.exists_spans
    exact ⟨e :: sign :: w, rfl, fun r => .signed he hsign (hw r)⟩

theorem Magnitude.exists_spans {s rest : List Char} (h : Magnitude s rest) :
    ∃ w, s = w ++ rest ∧ Spans Magnitude w := by
  obtain ⟨hs, ht, hu⟩ := h
  obtain ⟨exponent, rfl, hexponent⟩ := hu.exists_spans
  obtain ⟨fraction, rfl, hfraction⟩ := ht.exists_spans
  obtain ⟨whole, rfl, hwhole⟩ := hs.exists_spans
  refine ⟨whole ++ (fraction ++ exponent), by simp, fun r => ?_⟩
  rw [List.append_assoc, List.append_assoc]
  exact .mk (hwhole _) (hfraction _) (hexponent r)

theorem Numeral.exists_spans {s rest : List Char} (h : Numeral s rest) :
    ∃ w, s = w ++ rest ∧ Spans Numeral w := by
  cases h with
  | positive h =>
    obtain ⟨w, rfl, hw⟩ := h.exists_spans
    exact ⟨w, rfl, fun r => .positive (hw r)⟩
  | negative h =>
    obtain ⟨w, rfl, hw⟩ := h.exists_spans
    exact ⟨'-' :: w, rfl, fun r => .negative (hw r)⟩

theorem Numeral.spans {w : List Char} (h : Numeral w []) : Spans Numeral w := by
  obtain ⟨v, rfl, hv⟩ := h.exists_spans
  rwa [List.append_nil]

/-! ## Strings -/

theorem CodeUnit.exists_spans {n : Nat} {s rest : List Char} (h : CodeUnit n s rest) :
    ∃ w, s = w ++ rest ∧ Spans (CodeUnit n) w := by
  obtain ⟨hn⟩ := h
  exact ⟨['\\', 'u', _, _, _, _], rfl, fun _ => .mk hn⟩

theorem CodeUnit.head {n : Nat} {c : Char} {s rest : List Char} (h : CodeUnit n (c :: s) rest) :
    c = '\\' := by
  cases h
  rfl

theorem CodeUnit.second {n : Nat} {c d : Char} {s rest : List Char}
    (h : CodeUnit n (c :: d :: s) rest) : d = 'u' := by
  cases h
  rfl

/-- A code unit that a string is at the front of is in the string. -/
theorem Chars.codeUnit {cs : Option (List Char)} {w rest u : List Char} {m : Nat}
    (h : Chars cs w []) (hm : CodeUnit m (w ++ rest) u) : ∃ v, CodeUnit m w v := by
  cases h with
  | close => cases hm
  | plain _ hb _ _ =>
    rw [List.cons_append] at hm
    exact absurd hm.head hb
  | letter hl _ =>
    rw [List.cons_append, List.cons_append] at hm
    exact absurd hm.second (unescape?_ne hl)
  | unit hn _ _ _ =>
    obtain ⟨hn⟩ := hn
    cases hm with
    | mk hm => exact ⟨_, .mk hm⟩
  | pair hn _ _ _ _ =>
    obtain ⟨hn⟩ := hn
    cases hm with
    | mk hm => exact ⟨_, .mk hm⟩
  | lone hn _ _ =>
    obtain ⟨hn⟩ := hn
    cases hm with
    | mk hm => exact ⟨_, .mk hm⟩

theorem Chars.exists_spans {cs : Option (List Char)} {s rest : List Char} (h : Chars cs s rest) :
    ∃ w, s = w ++ rest ∧ Spans (Chars cs) w := by
  induction h with
  | close => exact ⟨['"'], rfl, fun _ => .close⟩
  | @plain c _ _ _ hq hb hc _ ih =>
    obtain ⟨w, rfl, hw⟩ := ih
    exact ⟨c :: w, rfl, fun r => .plain hq hb hc (hw r)⟩
  | @letter l _ _ _ _ hl _ ih =>
    obtain ⟨w, rfl, hw⟩ := ih
    exact ⟨'\\' :: l :: w, rfl, fun r => .letter hl (hw r)⟩
  | unit hn hl ht _ ih =>
    obtain ⟨w, rfl, hw⟩ := ih
    obtain ⟨u, rfl, hu⟩ := hn.exists_spans
    refine ⟨u ++ w, by simp, fun r => ?_⟩
    rw [List.append_assoc]
    exact .unit (hu _) hl ht (hw r)
  | pair hn hl hm ht _ ih =>
    obtain ⟨w, rfl, hw⟩ := ih
    obtain ⟨v, rfl, hv⟩ := hm.exists_spans
    obtain ⟨u, rfl, hu⟩ := hn.exists_spans
    refine ⟨u ++ (v ++ w), by simp, fun r => ?_⟩
    rw [List.append_assoc, List.append_assoc]
    exact .pair (hu _) hl (hv _) ht (hw r)
  | @lone n cs _ _ rest hn hlone _ ih =>
    obtain ⟨w, rfl, hw⟩ := ih
    obtain ⟨u, rfl, hu⟩ := hn.exists_spans
    refine ⟨u ++ w, by simp, fun r => ?_⟩
    rw [List.append_assoc]
    refine .lone (hu _) (hlone.imp_right fun ⟨hl, hno⟩ => ⟨hl, fun m t hm => ?_⟩) (hw r)
    -- the second half of a pair would be in the string itself
    obtain ⟨v, hv⟩ := hw.whole.codeUnit hm
    obtain ⟨v', rfl, hv'⟩ := hv.exists_spans
    rw [List.append_assoc] at hno
    exact hno m _ (hv' _)

theorem Chars.spans {cs : Option (List Char)} {w : List Char} (h : Chars cs w []) :
    Spans (Chars cs) w := by
  obtain ⟨v, rfl, hv⟩ := h.exists_spans
  rwa [List.append_nil]

/-! ## Values -/

mutual

theorem Spells.exists_spans {v : Value} {s rest : List Char} (h : Spells v s rest) :
    ∃ w, s = w ++ rest ∧ Spans (Spells v) w := by
  cases h with
  | null hs =>
    obtain ⟨b, hb, rfl⟩ := hs
    exact ⟨b ++ ['n', 'u', 'l', 'l'], by simp, fun r => .null ⟨b, hb, by simp⟩⟩
  | wordTrue hs =>
    obtain ⟨b, hb, rfl⟩ := hs
    exact ⟨b ++ ['t', 'r', 'u', 'e'], by simp, fun r => .wordTrue ⟨b, hb, by simp⟩⟩
  | wordFalse hs =>
    obtain ⟨b, hb, rfl⟩ := hs
    exact ⟨b ++ ['f', 'a', 'l', 's', 'e'], by simp, fun r => .wordFalse ⟨b, hb, by simp⟩⟩
  | number hs hn =>
    obtain ⟨w, rfl, hw⟩ := hn.exists_spans
    obtain ⟨b, hb, rfl⟩ := hs
    exact ⟨b ++ w, by simp, fun r => .number ⟨b, hb, by simp⟩ (hw r)⟩
  | string hs ht =>
    obtain ⟨w, rfl, hw⟩ := ht.exists_spans
    obtain ⟨b, hb, rfl⟩ := hs
    exact ⟨b ++ '"' :: w, by simp, fun r => .string ⟨b, hb, by simp⟩ (hw r)⟩
  | array hs ht =>
    obtain ⟨w, rfl, hw⟩ := ht.exists_spans
    obtain ⟨b, hb, rfl⟩ := hs
    exact ⟨b ++ '[' :: w, by simp, fun r => .array ⟨b, hb, by simp⟩ (hw r)⟩
  | object hs ht =>
    obtain ⟨w, rfl, hw⟩ := ht.exists_spans
    obtain ⟨b, hb, rfl⟩ := hs
    exact ⟨b ++ '{' :: w, by simp, fun r => .object ⟨b, hb, by simp⟩ (hw r)⟩

theorem SpellsElements.exists_spans {first : Bool} {vs : List Value} {s rest : List Char}
    (h : SpellsElements first vs s rest) : ∃ w, s = w ++ rest ∧ Spans (SpellsElements first vs) w := by
  cases h with
  | close hs =>
    obtain ⟨b, hb, rfl⟩ := hs
    exact ⟨b ++ [']'], by simp, fun r => .close ⟨b, hb, by simp⟩⟩
  | first hv hvs =>
    obtain ⟨x, hs, hx⟩ := hv.exists_spans
    obtain ⟨w, ht, hw⟩ := hvs.exists_spans
    subst hs ht
    exact ⟨x ++ w, by simp, fun r => .first (by rw [List.append_assoc]; exact hx _) (hw r)⟩
  | next hs hv hvs =>
    obtain ⟨x, ht, hx⟩ := hv.exists_spans
    obtain ⟨w, hu, hw⟩ := hvs.exists_spans
    obtain ⟨b, hb, rfl⟩ := hs
    subst ht hu
    exact ⟨b ++ ',' :: (x ++ w), by simp, fun r => .next ⟨b, hb, by simp⟩ (hx _) (hw r)⟩

theorem SpellsMembers.exists_spans {first : Bool} {ms : List Value.Member} {s rest : List Char}
    (h : SpellsMembers first ms s rest) : ∃ w, s = w ++ rest ∧ Spans (SpellsMembers first ms) w := by
  cases h with
  | close hs =>
    obtain ⟨b, hb, rfl⟩ := hs
    exact ⟨b ++ ['}'], by simp, fun r => .close ⟨b, hb, by simp⟩⟩
  | first hm hms =>
    obtain ⟨x, hs, hx⟩ := hm.exists_spans
    obtain ⟨w, ht, hw⟩ := hms.exists_spans
    subst hs ht
    exact ⟨x ++ w, by simp, fun r => .first (by rw [List.append_assoc]; exact hx _) (hw r)⟩
  | next hs hm hms =>
    obtain ⟨x, ht, hx⟩ := hm.exists_spans
    obtain ⟨w, hu, hw⟩ := hms.exists_spans
    obtain ⟨b, hb, rfl⟩ := hs
    subst ht hu
    exact ⟨b ++ ',' :: (x ++ w), by simp, fun r => .next ⟨b, hb, by simp⟩ (hx _) (hw r)⟩

theorem SpellsMember.exists_spans {m : Value.Member} {s rest : List Char}
    (h : SpellsMember m s rest) : ∃ w, s = w ++ rest ∧ Spans (SpellsMember m) w := by
  cases h with
  | mk hs hcs hu hv =>
    obtain ⟨w, rfl, hw⟩ := hv.exists_spans
    obtain ⟨c, hc, rfl⟩ := hu
    obtain ⟨x, rfl, hx⟩ := hcs.exists_spans
    obtain ⟨b, hb, rfl⟩ := hs
    refine ⟨b ++ '"' :: (x ++ (c ++ ':' :: w)), by simp, fun r => ?_⟩
    exact .mk ⟨b, hb, by simp⟩ (hx (c ++ ':' :: (w ++ r))) ⟨c, hc, rfl⟩ (hw r)

end

end TapeMachine.Json
