import Mathlib
import TapeMachine.Proofs.Json.Values
/-!
# The grammar of JSON

What a text spells, said without a reader: in `Spells v s rest` the text `s` begins with the value
`v`, after blanks, and goes on with `rest`. A value keeps the members of an object in the order of
the text, repeated names included, and of a string it keeps what the string denotes, however it is
spelled. Only a string with half a surrogate pair is in the grammar and denotes nothing.
-/

namespace TapeMachine.Json

/-! ## Blanks -/

/-- The text is `rest` after blanks. -/
def Blanks (s rest : List Char) : Prop := ∃ b, Blank b ∧ s = b ++ rest

/-- Nothing follows in the text that could belong to a number or a word. -/
def Ends (s : List Char) : Prop := ∀ c ∈ s.head?, isBlank c ∨ c = ',' ∨ c = ']' ∨ c = '}'

theorem Blanks.refl (s : List Char) : Blanks s s := ⟨[], blank_nil, rfl⟩

theorem Blank.append {b s : List Char} (hb : Blank b) (h : Blank s) : Blank (b ++ s) := by
  intro c hc
  rcases List.mem_append.1 hc with hc | hc
  · exact hb c hc
  · exact h c hc

theorem Blank.ends {s : List Char} (h : Blank s) : Ends s :=
  fun c hc => .inl (h c (List.mem_of_mem_head? hc))

theorem Blanks.append {b s rest : List Char} (h : Blanks s rest) (hb : Blank b) :
    Blanks (b ++ s) rest := by
  obtain ⟨d, hd, rfl⟩ := h
  exact ⟨b ++ d, hb.append hd, by simp⟩

theorem Blanks.blank {s : List Char} (h : Blanks s []) : Blank s := by
  obtain ⟨b, hb, rfl⟩ := h
  rwa [List.append_nil]

theorem Blanks.skipBlanks {s rest : List Char} (h : Blanks s rest) :
    skipBlanks s = skipBlanks rest := by
  obtain ⟨b, hb, rfl⟩ := h
  exact skipBlanks_append hb rest

theorem Blanks.skipBlanks_cons {s rest : List Char} {c : Char} (h : Blanks s (c :: rest))
    (hc : isBlank c = false) : Json.skipBlanks s = c :: rest := by
  rw [h.skipBlanks, Json.skipBlanks_cons hc]

theorem Blanks.ends {s rest : List Char} {c : Char} (h : Blanks s (c :: rest))
    (hc : c = ',' ∨ c = ']' ∨ c = '}') : Ends s := by
  obtain ⟨b, hb, rfl⟩ := h
  intro d hd
  cases b with
  | nil =>
    cases hd
    exact .inr hc
  | cons e b =>
    cases hd
    exact .inl (hb _ List.mem_cons_self)

/-! ## Numbers -/

/-- One digit or more. -/
inductive Digits : List Char → List Char → Prop
  | one {c : Char} {rest : List Char} : isDigit c → Digits (c :: rest) rest
  | more {c : Char} {s rest : List Char} : isDigit c → Digits s rest → Digits (c :: s) rest

/-- The digits before the point, of which a zero stands alone. -/
inductive Whole : List Char → List Char → Prop
  | zero {rest : List Char} : Whole ('0' :: rest) rest
  | digits {c : Char} {s rest : List Char} : c ≠ '0' → Digits (c :: s) rest → Whole (c :: s) rest

inductive Fraction : List Char → List Char → Prop
  | none {rest : List Char} : Fraction rest rest
  | digits {s rest : List Char} : Digits s rest → Fraction ('.' :: s) rest

inductive Exponent : List Char → List Char → Prop
  | none {rest : List Char} : Exponent rest rest
  | unsigned {e : Char} {s rest : List Char} : e = 'e' ∨ e = 'E' → Digits s rest →
      Exponent (e :: s) rest
  | signed {e sign : Char} {s rest : List Char} : e = 'e' ∨ e = 'E' → sign = '+' ∨ sign = '-' →
      Digits s rest → Exponent (e :: sign :: s) rest

/-- A number without its sign. -/
inductive Magnitude : List Char → List Char → Prop
  | mk {s t u rest : List Char} : Whole s t → Fraction t u → Exponent u rest → Magnitude s rest

inductive Numeral : List Char → List Char → Prop
  | positive {s rest : List Char} : Magnitude s rest → Numeral s rest
  | negative {s rest : List Char} : Magnitude s rest → Numeral ('-' :: s) rest

/-! ## Strings -/

/-- A UTF-16 code unit as an escape of four hexadecimal digits. -/
inductive CodeUnit (n : Nat) : List Char → List Char → Prop
  | mk {a b c d : Char} {rest : List Char} : hexValue? a b c d = some n →
      CodeUnit n ('\\' :: 'u' :: a :: b :: c :: d :: rest) rest

/-- The characters of a string up to its closing quote, and what they denote. -/
inductive Chars : Option (List Char) → List Char → List Char → Prop
  | close {rest : List Char} : Chars (some []) ('"' :: rest) rest
  | plain {c : Char} {cs : Option (List Char)} {s rest : List Char} :
      c ≠ '"' → c ≠ '\\' → ¬ c < ' ' → Chars cs s rest → Chars (cs.map (c :: ·)) (c :: s) rest
  | letter {l c : Char} {cs : Option (List Char)} {s rest : List Char} :
      unescape? l = some c → Chars cs s rest → Chars (cs.map (c :: ·)) ('\\' :: l :: s) rest
  | unit {n : Nat} {cs : Option (List Char)} {s t rest : List Char} :
      CodeUnit n s t → isLeadingSurrogate n = false → isTrailingSurrogate n = false →
      Chars cs t rest → Chars (cs.map (Char.ofNat n :: ·)) s rest
  | pair {n m : Nat} {cs : Option (List Char)} {s t u rest : List Char} :
      CodeUnit n s t → isLeadingSurrogate n → CodeUnit m t u → isTrailingSurrogate m →
      Chars cs u rest →
      Chars (cs.map (Char.ofNat ((n - 0xd800) * 0x400 + (m - 0xdc00) + 0x10000) :: ·)) s rest
  | lone {n : Nat} {cs : Option (List Char)} {s t rest : List Char} :
      CodeUnit n s t → isTrailingSurrogate n ∨ isLeadingSurrogate n ∧
        (∀ m u, CodeUnit m t u → isTrailingSurrogate m = false) →
      Chars cs t rest → Chars none s rest

/-! ## Values -/

/-- A value by its kind, with all that can matter to a description: not what number it is. -/
inductive Value where
  | null
  | boolean (b : Bool)
  | number
  | string (text : Option String)
  | array (elements : List Value)
  | object (members : List (Option String × Value))

/-- A member of an object: its name, unless the name denotes nothing, and its value. -/
abbrev Value.Member := Option String × Value

mutual

/-- The text begins with the value. -/
inductive Spells : Value → List Char → List Char → Prop
  | null {s rest : List Char} : Blanks s ('n' :: 'u' :: 'l' :: 'l' :: rest) → Spells .null s rest
  | wordTrue {s rest : List Char} : Blanks s ('t' :: 'r' :: 'u' :: 'e' :: rest) →
      Spells (.boolean true) s rest
  | wordFalse {s rest : List Char} : Blanks s ('f' :: 'a' :: 'l' :: 's' :: 'e' :: rest) →
      Spells (.boolean false) s rest
  | number {s t rest : List Char} : Blanks s t → Numeral t rest → Spells .number s rest
  | string {cs : Option (List Char)} {s t rest : List Char} : Blanks s ('"' :: t) →
      Chars cs t rest → Spells (.string (cs.map String.ofList)) s rest
  | array {vs : List Value} {s t rest : List Char} : Blanks s ('[' :: t) →
      SpellsElements true vs t rest → Spells (.array vs) s rest
  | object {ms : List Value.Member} {s t rest : List Char} : Blanks s ('{' :: t) →
      SpellsMembers true ms t rest → Spells (.object ms) s rest

/-- The text begins with elements of an array and its closing bracket; a comma stands before each
element, the `first` of the array apart. -/
inductive SpellsElements : (first : Bool) → List Value → List Char → List Char → Prop
  | close {first : Bool} {s rest : List Char} : Blanks s (']' :: rest) →
      SpellsElements first [] s rest
  | first {v : Value} {vs : List Value} {s t rest : List Char} : Spells v s t →
      SpellsElements false vs t rest → SpellsElements true (v :: vs) s rest
  | next {v : Value} {vs : List Value} {s t u rest : List Char} : Blanks s (',' :: t) →
      Spells v t u → SpellsElements false vs u rest → SpellsElements false (v :: vs) s rest

/-- The text begins with members of an object and its closing bracket. -/
inductive SpellsMembers : (first : Bool) → List Value.Member → List Char → List Char → Prop
  | close {first : Bool} {s rest : List Char} : Blanks s ('}' :: rest) →
      SpellsMembers first [] s rest
  | first {m : Value.Member} {ms : List Value.Member} {s t rest : List Char} : SpellsMember m s t →
      SpellsMembers false ms t rest → SpellsMembers true (m :: ms) s rest
  | next {m : Value.Member} {ms : List Value.Member} {s t u rest : List Char} :
      Blanks s (',' :: t) → SpellsMember m t u → SpellsMembers false ms u rest →
      SpellsMembers false (m :: ms) s rest

/-- The text begins with a name, a colon and a value. -/
inductive SpellsMember : Value.Member → List Char → List Char → Prop
  | mk {cs : Option (List Char)} {v : Value} {s t u w rest : List Char} : Blanks s ('"' :: t) →
      Chars cs t u → Blanks u (':' :: w) → Spells v w rest →
      SpellsMember (cs.map String.ofList, v) s rest

end

/-- The whole text spells the value. -/
def Value.IsSpelled (v : Value) (text : String) : Prop :=
  ∃ rest, Spells v text.toList rest ∧ Blanks rest []

/-- The characters stand for themselves in a string. -/
def IsPlain (text : String) : Prop := ∀ c ∈ text.toList, c ≠ '"' ∧ c ≠ '\\' ∧ ¬ c < ' '

instance (text : String) : Decidable (IsPlain text) := List.decidableBAll _ text.toList

theorem Chars.of_isPlain {text : String} (h : IsPlain text) (rest : List Char) :
    Chars (some text.toList) (text.toList ++ '"' :: rest) rest := by
  unfold IsPlain at h
  generalize text.toList = cs at h ⊢
  induction cs with
  | nil => exact .close
  | cons c cs ih =>
    obtain ⟨hc, hcs⟩ := List.forall_mem_cons.1 h
    exact .plain hc.1 hc.2.1 hc.2.2 (ih hcs)

theorem Spells.of_isPlain {text : String} {s rest : List Char} (h : IsPlain text)
    (hs : Blanks s ('"' :: (text.toList ++ '"' :: rest))) :
    Spells (.string (some text)) s rest := by
  have hspells : Spells (.string ((some text.toList).map String.ofList)) s rest :=
    .string hs (.of_isPlain h rest)
  rwa [Option.map_some, String.ofList_toList] at hspells

theorem SpellsMember.of_chars {name : String} {v : Value} {s t u w rest : List Char}
    (hs : Blanks s ('"' :: t)) (ht : Chars (some name.toList) t u) (hu : Blanks u (':' :: w))
    (hv : Spells v w rest) : SpellsMember (some name, v) s rest := by
  have hspells : SpellsMember ((some name.toList).map String.ofList, v) s rest := .mk hs ht hu hv
  rwa [Option.map_some, String.ofList_toList] at hspells

theorem SpellsMember.of_isPlain {name : String} {v : Value} {s t u rest : List Char}
    (h : IsPlain name) (hs : Blanks s ('"' :: (name.toList ++ '"' :: t))) (ht : Blanks t (':' :: u))
    (hv : Spells v u rest) : SpellsMember (some name, v) s rest :=
  .of_chars hs (.of_isPlain h t) ht hv

theorem SpellsElements.ends {vs : List Value} {s rest : List Char}
    (h : SpellsElements false vs s rest) : Ends s := by
  cases h with
  | close hs => exact hs.ends (by simp)
  | next hs _ _ => exact hs.ends (by simp)

theorem SpellsMembers.ends {ms : List Value.Member} {s rest : List Char}
    (h : SpellsMembers false ms s rest) : Ends s := by
  cases h with
  | close hs => exact hs.ends (by simp)
  | next hs _ _ => exact hs.ends (by simp)

/-! ## How values begin -/

theorem Digits.head {s rest : List Char} (h : Digits s rest) : ∃ c t, s = c :: t ∧ isDigit c := by
  cases h with
  | one hc => exact ⟨_, _, rfl, hc⟩
  | more hc _ => exact ⟨_, _, rfl, hc⟩

theorem Whole.head {s rest : List Char} (h : Whole s rest) : ∃ c t, s = c :: t ∧ isDigit c := by
  cases h with
  | zero => exact ⟨'0', _, rfl, rfl⟩
  | digits _ h => exact h.head

theorem Numeral.head {s rest : List Char} (h : Numeral s rest) :
    ∃ c t, s = c :: t ∧ (c = '-' ∨ isDigit c) := by
  cases h with
  | positive h =>
    obtain ⟨hw, -, -⟩ := h
    obtain ⟨c, t, rfl, hc⟩ := hw.head
    exact ⟨c, t, rfl, .inr hc⟩
  | negative _ => exact ⟨'-', _, rfl, .inl rfl⟩

/-- A value of this kind begins with the character. -/
def Value.Opens (c : Char) : Value → Prop
  | null => c = 'n'
  | boolean b => c = if b then 't' else 'f'
  | number => c = '-' ∨ isDigit c
  | string _ => c = '"'
  | array _ => c = '['
  | object _ => c = '{'

theorem Value.Opens.mem {c : Char} {v : Value} (h : v.Opens c) :
    c ∈ ['n', 't', 'f', '"', '[', '{', '-'] ∨ isDigit c := by
  cases v with
  | number =>
    rcases h with rfl | h
    · exact .inl (by decide)
    · exact .inr h
  | boolean b =>
    subst h
    cases b <;> exact .inl (by decide)
  | _ =>
    subst h
    exact .inl (by decide)

/-- No value begins with a blank or like the end of an array or an object. -/
theorem Value.Opens.not_mem {c : Char} {v : Value} (h : v.Opens c) :
    c ∉ [' ', '\n', '\t', '\r', ']', '}'] := by
  intro hc
  simp only [List.mem_cons, List.not_mem_nil, or_false] at hc
  have hm := h.mem
  rcases hc with rfl | rfl | rfl | rfl | rfl | rfl
  all_goals
    revert hm
    decide

theorem Value.Opens.isBlank {c : Char} {v : Value} (h : v.Opens c) : isBlank c = false := by
  have hc := h.not_mem
  simp only [List.mem_cons, not_or] at hc
  obtain ⟨hspace, hline, htab, hreturn, -⟩ := hc
  simp [Json.isBlank, hspace, hline, htab, hreturn]

theorem isBlank_of_isDigit {c : Char} (h : isDigit c) : isBlank c = false :=
  Value.Opens.isBlank (v := .number) (.inr h)

theorem Spells.opens {v : Value} {s rest : List Char} (h : Spells v s rest) :
    ∃ c t, Blanks s (c :: t) ∧ v.Opens c := by
  cases h with
  | null hs => exact ⟨_, _, hs, rfl⟩
  | wordTrue hs => exact ⟨_, _, hs, rfl⟩
  | wordFalse hs => exact ⟨_, _, hs, rfl⟩
  | number hs hn =>
    obtain ⟨c, t, rfl, hc⟩ := hn.head
    exact ⟨c, t, hs, hc⟩
  | string hs _ => exact ⟨_, _, hs, rfl⟩
  | array hs _ => exact ⟨_, _, hs, rfl⟩
  | object hs _ => exact ⟨_, _, hs, rfl⟩

theorem Spells.skipBlanks {v : Value} {s rest : List Char} (h : Spells v s rest) :
    ∃ c t, Json.skipBlanks s = c :: t ∧ v.Opens c := by
  obtain ⟨c, t, hs, hc⟩ := h.opens
  exact ⟨c, t, hs.skipBlanks_cons hc.isBlank, hc⟩

end TapeMachine.Json
