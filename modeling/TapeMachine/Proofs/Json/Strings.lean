import Mathlib
import TapeMachine.Json.Token
import TapeMachine.Json.Writer
/-!
# Strings read back

What is written for a character is read as that character, whether it stands for itself or is
escaped, so a written string ends at its own closing quote: `readString_writeChars`.
-/

namespace TapeMachine.Json

theorem hexDigit?_digitChar : ∀ d < 16, hexDigit? (Nat.digitChar d) = some d := by
  decide

theorem hexValue?_zero_zero {n : Nat} (h : n < 256) :
    hexValue? '0' '0' (Nat.digitChar (n / 16)) (Nat.digitChar (n % 16)) = some n := by
  have h0 : hexDigit? '0' = some 0 := hexDigit?_digitChar 0 (by omega)
  unfold hexValue?
  rw [h0, hexDigit?_digitChar _ (by omega), hexDigit?_digitChar _ (by omega)]
  simp
  omega

/-- A control that is escaped by its code point is read back. -/
theorem readEscape_control {c : Char} (h : c < ' ') (rest : List Char) :
    readEscape ('u' :: '0' :: '0' :: Nat.digitChar (c.toNat / 16) :: Nat.digitChar (c.toNat % 16) ::
      rest) = .ok (c, rest) := by
  have hc : c.toNat < 32 := h
  have hl : isLeadingSurrogate c.toNat = false := by simp [isLeadingSurrogate]; omega
  have ht : isTrailingSurrogate c.toNat = false := by simp [isTrailingSurrogate]; omega
  simp [readEscape, readUnicode, readHex, hexValue?_zero_zero (show c.toNat < 256 by omega), bind,
    Except.bind, pure, Except.pure, hl, ht, Char.ofNat_toNat]

theorem readString_escape {done tail rest : List Char} {c : Char}
    (h : readEscape tail = .ok (c, rest)) :
    readString done ('\\' :: tail) = readString (c :: done) rest := by
  rw [readString]
  split <;> simp_all

theorem readString_plain {c : Char} (hq : c ≠ '"') (hb : c ≠ '\\') (hc : ¬ c < ' ')
    (done rest : List Char) : readString done (c :: rest) = readString (c :: done) rest := by
  rw [readString]
  · rw [if_neg hc]
  · exact hq
  · exact hb

/-- One written character is one character read. -/
theorem readString_writeChar (done : List Char) (c : Char) (rest : List Char) :
    readString done (writeChar c ++ rest) = readString (c :: done) rest := by
  unfold writeChar
  split_ifs with hm hb ht hn hf hr hc
  · refine readString_escape ?_
    rcases hm with rfl | rfl <;> rfl
  -- the controls that have letters of their own
  iterate 5
    subst c
    exact readString_escape rfl
  · exact readString_escape (readEscape_control hc rest)
  · rw [not_or] at hm
    exact readString_plain hm.1 hm.2 hc done rest

theorem readString_writeChars (done s rest : List Char) :
    readString done (s.flatMap writeChar ++ '"' :: rest) =
      .ok (String.ofList (done.reverse ++ s), rest) := by
  induction s generalizing done with
  | nil => simp [readString]
  | cons c s ih =>
    rw [List.flatMap_cons, List.append_assoc, readString_writeChar, ih, List.reverse_cons,
      List.append_assoc]
    rfl

end TapeMachine.Json
