import Mathlib
import TapeMachine.Proofs.Json.Spans
/-!
# Tokens

A text of JSON is its tokens with blanks between them, before the first and after the last. Which
blanks these are does not matter: two texts with the same tokens spell the same value,
`Value.IsSpelled.of_sameTokens`. A word or a number is a token only where nothing follows that could
belong to it, so that none is cut in two, and every text that spells a value consists of tokens:
`Value.IsSpelled.exists_tokens`.
-/

namespace TapeMachine.Json

/-! ## Kinds of tokens -/

inductive TokenKind where
  | mark
  | string
  | word
  | number

/-- A token of this kind ends where nothing follows that could belong to it. -/
def TokenKind.IsOpen : TokenKind → Prop
  | mark | string => False
  | word | number => True

/-- The characters that are tokens by themselves. -/
def marks : List Char := ['{', '}', '[', ']', ',', ':']

def words : List (List Char) :=
  [['n', 'u', 'l', 'l'], ['t', 'r', 'u', 'e'], ['f', 'a', 'l', 's', 'e']]

inductive IsToken : TokenKind → List Char → Prop
  | mark {c : Char} : c ∈ marks → IsToken .mark [c]
  | string {cs : Option (List Char)} {w : List Char} : Chars cs w [] → IsToken .string ('"' :: w)
  | word {w : List Char} : w ∈ words → IsToken .word w
  | number {w : List Char} : Numeral w [] → IsToken .number w

/-- The text consists of the tokens and of blanks. -/
inductive Tokens : List (List Char) → List Char → Prop
  | nil {b : List Char} : Blank b → Tokens [] b
  | cons {k : TokenKind} {w : List Char} {ws : List (List Char)} {s t : List Char} :
      Blanks s (w ++ t) → IsToken k w → (k.IsOpen → Ends t) → Tokens ws t → Tokens (w :: ws) s

/-- The texts have the same tokens. -/
def SameTokens (s s' : List Char) : Prop := ∃ ws, Tokens ws s ∧ Tokens ws s'

variable {c : Char} {k : TokenKind} {w : List Char} {ws : List (List Char)}
  {b s s' t rest : List Char}

/-- Blanks before a text are no part of its tokens. -/
theorem Tokens.sameTokens_append (h : Tokens ws s) (hb : Blank b) : SameTokens s (b ++ s) := by
  refine ⟨ws, h, ?_⟩
  cases h with
  | nil hs => exact .nil (hb.append hs)
  | cons hs hw hu ht => exact .cons (hs.append hb) hw hu ht

/-! ## How tokens begin -/

/-- The kind of the tokens that begin with the character. -/
def kindOf (c : Char) : TokenKind :=
  if c ∈ marks then .mark
  else if c = '"' then .string
  else if c ∈ ['n', 't', 'f'] then .word
  else .number

theorem kindOf_of_isDigit (h : isDigit c) : kindOf c = .number := by
  have hne : c ∉ marks ++ ['"', 'n', 't', 'f'] := by
    intro hc
    simp only [marks, List.cons_append, List.nil_append, List.mem_cons, List.not_mem_nil, or_false]
      at hc
    rcases hc with rfl | rfl | rfl | rfl | rfl | rfl | rfl | rfl | rfl | rfl
    all_goals
      revert h
      decide
  simp only [List.mem_append, List.mem_cons, List.not_mem_nil, or_false, not_or] at hne
  simp [kindOf, hne]

theorem IsToken.exists_cons (h : IsToken k w) :
    ∃ c v, w = c :: v ∧ isBlank c = false ∧ kindOf c = k := by
  cases h with
  | @mark c hc =>
    refine ⟨c, [], rfl, ?_, if_pos hc⟩
    revert c
    simp [marks, isBlank]
  | @string _ w _ => exact ⟨'"', w, rfl, rfl, rfl⟩
  | word hw =>
    simp only [words, List.mem_cons, List.not_mem_nil, or_false] at hw
    rcases hw with rfl | rfl | rfl <;> exact ⟨_, _, rfl, rfl, rfl⟩
  | number hn =>
    obtain ⟨c, v, rfl, hc⟩ := hn.head
    have hopens : Value.number.Opens c := hc
    refine ⟨c, v, rfl, hopens.isBlank, ?_⟩
    rcases hc with rfl | hc
    · rfl
    · exact kindOf_of_isDigit hc

/-- The first token of a text is of the kind that its first character tells. -/
theorem Tokens.first (h : Tokens ws s) (hs : Blanks s (c :: t)) (hc : isBlank c = false) :
    ∃ w us u, ws = (c :: w) :: us ∧ t = w ++ u ∧ IsToken (kindOf c) (c :: w) ∧
      ((kindOf c).IsOpen → Ends u) ∧ Tokens us u := by
  cases h with
  | nil hb =>
    obtain ⟨b, -, rfl⟩ := hs
    have := hb c (by simp)
    simp_all
  | cons hs' hw hu ht =>
    obtain ⟨d, w, rfl, hd, rfl⟩ := hw.exists_cons
    have heq := (hs.skipBlanks_cons hc).symm.trans (hs'.skipBlanks_cons hd)
    cases heq
    exact ⟨w, _, _, rfl, rfl, hw, hu, ht⟩

theorem Tokens.uncons (h : Tokens (w :: ws) s) : ∃ t, Blanks s (w ++ t) ∧ Tokens ws t := by
  cases h with
  | cons hs _ _ ht => exact ⟨_, hs, ht⟩

/-- The characters of a string end in one place only. -/
theorem Chars.rest_eq {cs ds : Option (List Char)} {u : List Char} (h : Chars cs s t)
    (h' : Chars ds s u) : t = u :=
  Except.ok.inj (h.skipString.symm.trans h'.skipString)

/-- The number that ends where nothing more of it follows ends in one place only. -/
theorem Numeral.rest_eq {u : List Char} (h : Numeral s t) (h' : Numeral s u) (ht : Ends t)
    (hu : Ends u) : t = u := by
  cases (enter_number (.refl s) h ht).symm.trans (enter_number (.refl s) h' hu)
  rfl

/-! ## One token in both texts -/

theorem SameTokens.first (h : SameTokens s s') (hs : Blanks s (c :: t)) (hc : isBlank c = false) :
    ∃ w u u', t = w ++ u ∧ Blanks s' (c :: (w ++ u')) ∧ IsToken (kindOf c) (c :: w) ∧
      ((kindOf c).IsOpen → Ends u) ∧ SameTokens u u' := by
  obtain ⟨ws, hws, hws'⟩ := h
  obtain ⟨w, us, u, rfl, rfl, hw, hu, ht⟩ := hws.first hs hc
  obtain ⟨u', hs', ht'⟩ := hws'.uncons
  exact ⟨w, u, u', rfl, hs', hw, hu, us, ht, ht'⟩

theorem SameTokens.mark (h : SameTokens s s') (hs : Blanks s (c :: t)) (hc : c ∈ marks) :
    ∃ t', Blanks s' (c :: t') ∧ SameTokens t t' := by
  obtain ⟨_, _, heq, hblank, hkind⟩ := (IsToken.mark hc).exists_cons
  cases heq
  obtain ⟨w, u, u', rfl, hs', hw, -, hsame⟩ := h.first hs hblank
  rw [hkind] at hw
  cases hw
  exact ⟨u', hs', hsame⟩

theorem SameTokens.word (h : SameTokens s s') (hs : Blanks s (w ++ t)) (hw : w ∈ words) :
    ∃ t', Blanks s' (w ++ t') ∧ SameTokens t t' := by
  obtain ⟨c, v, rfl, hblank, hkind⟩ := (IsToken.word hw).exists_cons
  obtain ⟨v', u, u', heq, hs', hv', -, hsame⟩ := h.first hs hblank
  rw [hkind] at hv'
  have hunique : ∀ w ∈ words, ∀ w' ∈ words, w.head? = w'.head? → w = w' := by decide
  cases hv' with
  | word hw' =>
    cases hunique _ hw _ hw' rfl
    cases List.append_cancel_left heq
    exact ⟨u', hs', hsame⟩

theorem SameTokens.string {cs : Option (List Char)} (h : SameTokens s s')
    (hs : Blanks s ('"' :: t)) (ht : Chars cs t rest) :
    ∃ t' rest', Blanks s' ('"' :: t') ∧ Chars cs t' rest' ∧ SameTokens rest rest' := by
  obtain ⟨w, u, u', rfl, hs', hw, -, hsame⟩ := h.first hs rfl
  obtain ⟨v, heq, hv⟩ := ht.exists_spans
  change IsToken .string _ at hw
  cases hw with
  | string hw =>
    cases (hw.spans u).rest_eq ht
    cases List.append_cancel_right heq
    exact ⟨w ++ u', u', hs', hv u', hsame⟩

theorem SameTokens.number (h : SameTokens s s') (hs : Blanks s t) (ht : Numeral t rest)
    (hr : Ends rest) :
    ∃ t' rest', Blanks s' t' ∧ Numeral t' rest' ∧ SameTokens rest rest' := by
  obtain ⟨v, rfl, hv⟩ := ht.exists_spans
  obtain ⟨c, v, rfl, hblank, hkind⟩ := (IsToken.number hv.whole).exists_cons
  obtain ⟨w, u, u', heq, hs', hw, hu, hsame⟩ := h.first hs hblank
  rw [hkind] at hw hu
  cases hw with
  | number hw =>
    have ht' : Numeral (c :: w ++ u) rest := by rwa [List.cons_append, ← heq]
    cases (hw.spans u).rest_eq ht' (hu trivial) hr
    exact ⟨_, u', hs', hw.spans u', hsame⟩

theorem SameTokens.nil (h : SameTokens s s') (hs : Blank s) : Blank s' := by
  obtain ⟨ws, hws, hws'⟩ := h
  cases hws with
  | nil _ =>
    cases hws' with
    | nil hs' => exact hs'
  | cons hs' hw _ _ =>
    obtain ⟨c, v, rfl, hc, -⟩ := hw.exists_cons
    obtain ⟨b, -, rfl⟩ := hs'
    have := hs c (by simp)
    simp_all

/-! ## All of a value -/

mutual

/-- What a text spells is in its tokens. -/
theorem Spells.of_sameTokens {v : Value} {s s' rest : List Char} (h : Spells v s rest)
    (hr : Ends rest) (hs : SameTokens s s') : ∃ rest', Spells v s' rest' ∧ SameTokens rest rest' := by
  cases h with
  | null hn =>
    obtain ⟨t', ht', hsame⟩ := hs.word (w := ['n', 'u', 'l', 'l']) hn (by simp [words])
    exact ⟨t', .null ht', hsame⟩
  | wordTrue hn =>
    obtain ⟨t', ht', hsame⟩ := hs.word (w := ['t', 'r', 'u', 'e']) hn (by simp [words])
    exact ⟨t', .wordTrue ht', hsame⟩
  | wordFalse hn =>
    obtain ⟨t', ht', hsame⟩ := hs.word (w := ['f', 'a', 'l', 's', 'e']) hn (by simp [words])
    exact ⟨t', .wordFalse ht', hsame⟩
  | number hn hv =>
    obtain ⟨t', rest', ht', hv', hsame⟩ := hs.number hn hv hr
    exact ⟨rest', .number ht' hv', hsame⟩
  | string hn hv =>
    obtain ⟨t', rest', ht', hv', hsame⟩ := hs.string hn hv
    exact ⟨rest', .string ht' hv', hsame⟩
  | array hn hv =>
    obtain ⟨t', ht', hsame⟩ := hs.mark hn (by simp [marks])
    obtain ⟨rest', hv', hrest⟩ := hv.of_sameTokens hsame
    exact ⟨rest', .array ht' hv', hrest⟩
  | object hn hv =>
    obtain ⟨t', ht', hsame⟩ := hs.mark hn (by simp [marks])
    obtain ⟨rest', hv', hrest⟩ := hv.of_sameTokens hsame
    exact ⟨rest', .object ht' hv', hrest⟩

theorem SpellsElements.of_sameTokens {first : Bool} {vs : List Value} {s s' rest : List Char}
    (h : SpellsElements first vs s rest) (hs : SameTokens s s') :
    ∃ rest', SpellsElements first vs s' rest' ∧ SameTokens rest rest' := by
  cases h with
  | close hn =>
    obtain ⟨t', ht', hsame⟩ := hs.mark hn (by simp [marks])
    exact ⟨t', .close ht', hsame⟩
  | first hv hvs =>
    obtain ⟨t', hv', hsame⟩ := hv.of_sameTokens hvs.ends hs
    obtain ⟨rest', hvs', hrest⟩ := hvs.of_sameTokens hsame
    exact ⟨rest', .first hv' hvs', hrest⟩
  | next hn hv hvs =>
    obtain ⟨t', ht', hcomma⟩ := hs.mark hn (by simp [marks])
    obtain ⟨u', hv', hsame⟩ := hv.of_sameTokens hvs.ends hcomma
    obtain ⟨rest', hvs', hrest⟩ := hvs.of_sameTokens hsame
    exact ⟨rest', .next ht' hv' hvs', hrest⟩

theorem SpellsMembers.of_sameTokens {first : Bool} {ms : List Value.Member} {s s' rest : List Char}
    (h : SpellsMembers first ms s rest) (hs : SameTokens s s') :
    ∃ rest', SpellsMembers first ms s' rest' ∧ SameTokens rest rest' := by
  cases h with
  | close hn =>
    obtain ⟨t', ht', hsame⟩ := hs.mark hn (by simp [marks])
    exact ⟨t', .close ht', hsame⟩
  | first hm hms =>
    obtain ⟨t', hm', hsame⟩ := hm.of_sameTokens hms.ends hs
    obtain ⟨rest', hms', hrest⟩ := hms.of_sameTokens hsame
    exact ⟨rest', .first hm' hms', hrest⟩
  | next hn hm hms =>
    obtain ⟨t', ht', hcomma⟩ := hs.mark hn (by simp [marks])
    obtain ⟨u', hm', hsame⟩ := hm.of_sameTokens hms.ends hcomma
    obtain ⟨rest', hms', hrest⟩ := hms.of_sameTokens hsame
    exact ⟨rest', .next ht' hm' hms', hrest⟩

theorem SpellsMember.of_sameTokens {m : Value.Member} {s s' rest : List Char}
    (h : SpellsMember m s rest) (hr : Ends rest) (hs : SameTokens s s') :
    ∃ rest', SpellsMember m s' rest' ∧ SameTokens rest rest' := by
  cases h with
  | mk hn hcs hu hv =>
    obtain ⟨t', u', ht', hcs', hname⟩ := hs.string hn hcs
    obtain ⟨w', hu', hcolon⟩ := hname.mark hu (by simp [marks])
    obtain ⟨rest', hv', hsame⟩ := hv.of_sameTokens hr hcolon
    exact ⟨rest', .mk ht' hcs' hu' hv', hsame⟩

end

theorem Value.IsSpelled.of_sameTokens {v : Value} {text text' : String} (h : v.IsSpelled text)
    (hs : SameTokens text.toList text'.toList) : v.IsSpelled text' := by
  obtain ⟨rest, hv, hrest⟩ := h
  obtain ⟨rest', hv', hsame⟩ := hv.of_sameTokens hrest.blank.ends hs
  exact ⟨rest', hv', rest', hsame.nil hrest.blank, (List.append_nil rest').symm⟩

/-! ## The tokens of a value -/

theorem Tokens.mark (h : Tokens ws t) (hs : Blanks s (c :: t)) (hc : c ∈ marks) :
    Tokens ([c] :: ws) s :=
  .cons hs (.mark hc) False.elim h

theorem Tokens.word (h : Tokens ws t) (hs : Blanks s (w ++ t)) (hw : w ∈ words) (ht : Ends t) :
    Tokens (w :: ws) s :=
  .cons hs (.word hw) (fun _ => ht) h

theorem Tokens.number (h : Tokens ws rest) (hs : Blanks s t) (ht : Numeral t rest)
    (hr : Ends rest) : ∃ us, Tokens us s := by
  obtain ⟨w, rfl, hw⟩ := ht.exists_spans
  exact ⟨w :: ws, .cons hs (.number hw.whole) (fun _ => hr) h⟩

theorem Tokens.string {cs : Option (List Char)} (h : Tokens ws rest) (hs : Blanks s ('"' :: t))
    (ht : Chars cs t rest) : ∃ us, Tokens us s := by
  obtain ⟨w, rfl, hw⟩ := ht.exists_spans
  exact ⟨('"' :: w) :: ws, .cons hs (.string hw.whole) False.elim h⟩

mutual

theorem Spells.exists_tokens {v : Value} {s rest : List Char} (h : Spells v s rest)
    (hr : Ends rest) {ws : List (List Char)} (ht : Tokens ws rest) : ∃ us, Tokens us s := by
  cases h with
  | null hs => exact ⟨_, ht.word (w := ['n', 'u', 'l', 'l']) hs (by simp [words]) hr⟩
  | wordTrue hs => exact ⟨_, ht.word (w := ['t', 'r', 'u', 'e']) hs (by simp [words]) hr⟩
  | wordFalse hs => exact ⟨_, ht.word (w := ['f', 'a', 'l', 's', 'e']) hs (by simp [words]) hr⟩
  | number hs hn => exact ht.number hs hn hr
  | string hs hcs => exact ht.string hs hcs
  | array hs hvs =>
    obtain ⟨us, hus⟩ := hvs.exists_tokens ht
    exact ⟨_, hus.mark hs (by simp [marks])⟩
  | object hs hms =>
    obtain ⟨us, hus⟩ := hms.exists_tokens ht
    exact ⟨_, hus.mark hs (by simp [marks])⟩

theorem SpellsElements.exists_tokens {first : Bool} {vs : List Value} {s rest : List Char}
    (h : SpellsElements first vs s rest) {ws : List (List Char)} (ht : Tokens ws rest) :
    ∃ us, Tokens us s := by
  cases h with
  | close hs => exact ⟨_, ht.mark hs (by simp [marks])⟩
  | first hv hvs =>
    obtain ⟨us, hus⟩ := hvs.exists_tokens ht
    exact hv.exists_tokens hvs.ends hus
  | next hs hv hvs =>
    obtain ⟨us, hus⟩ := hvs.exists_tokens ht
    obtain ⟨us', hus'⟩ := hv.exists_tokens hvs.ends hus
    exact ⟨_, hus'.mark hs (by simp [marks])⟩

theorem SpellsMembers.exists_tokens {first : Bool} {ms : List Value.Member} {s rest : List Char}
    (h : SpellsMembers first ms s rest) {ws : List (List Char)} (ht : Tokens ws rest) :
    ∃ us, Tokens us s := by
  cases h with
  | close hs => exact ⟨_, ht.mark hs (by simp [marks])⟩
  | first hm hms =>
    obtain ⟨us, hus⟩ := hms.exists_tokens ht
    exact hm.exists_tokens hms.ends hus
  | next hs hm hms =>
    obtain ⟨us, hus⟩ := hms.exists_tokens ht
    obtain ⟨us', hus'⟩ := hm.exists_tokens hms.ends hus
    exact ⟨_, hus'.mark hs (by simp [marks])⟩

theorem SpellsMember.exists_tokens {m : Value.Member} {s rest : List Char}
    (h : SpellsMember m s rest) (hr : Ends rest) {ws : List (List Char)} (ht : Tokens ws rest) :
    ∃ us, Tokens us s := by
  cases h with
  | mk hs hcs hu hv =>
    obtain ⟨us, hus⟩ := hv.exists_tokens hr ht
    exact (hus.mark hu (by simp [marks])).string hs hcs

end

theorem Value.IsSpelled.exists_tokens {v : Value} {text : String} (h : v.IsSpelled text) :
    ∃ ws, Tokens ws text.toList := by
  obtain ⟨rest, hv, hrest⟩ := h
  exact hv.exists_tokens hrest.blank.ends (.nil hrest.blank)

end TapeMachine.Json
