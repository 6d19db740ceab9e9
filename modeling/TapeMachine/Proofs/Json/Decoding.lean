import Mathlib
import TapeMachine.Proofs.Json.Records
import TapeMachine.Proofs.Json.Skipping
/-!
# Readers as functions of values

A reader sees no more of a text than the value that the text spells: `Decodes reader decode`. It
takes the value to its end and makes of it what `decode` does, and it fails where `decode` gives
nothing. So how a value is spelled, with which blanks and escapes, does not matter to any reader.
-/

namespace TapeMachine.Json

variable {α β : Type}

/-! ## Strings -/

theorem readString_fault {done tail : List Char} {fault : Fault}
    (h : readEscape tail = .error fault) : readString done ('\\' :: tail) = .error fault := by
  rw [readString]
  split <;> simp_all

theorem CodeUnit.readHex {n : Nat} {s rest : List Char} (h : CodeUnit n s rest) :
    ∃ t, s = '\\' :: 'u' :: t ∧ readHex t = .ok (n, rest) := by
  obtain ⟨hn⟩ := h
  exact ⟨_, rfl, by simp [Json.readHex, hn]⟩

theorem readTrailing_of_codeUnit {n m : Nat} {s rest : List Char} (h : CodeUnit m s rest)
    (hm : isTrailingSurrogate m) :
    readTrailing n s =
      .ok (Char.ofNat ((n - 0xd800) * 0x400 + (m - 0xdc00) + 0x10000), rest) := by
  obtain ⟨t, rfl, ht⟩ := h.readHex
  simp only [readTrailing, ht, bind, Except.bind, hm, if_true]
  rfl

theorem codeUnit_of_readHex {n : Nat} {s rest : List Char} (h : readHex s = .ok (n, rest)) :
    CodeUnit n ('\\' :: 'u' :: s) rest := by
  unfold readHex at h
  split at h
  · split at h
    · rename_i hn
      cases h
      exact ⟨hn⟩
    · cases h
  · cases h

/-- Without its second half a pair is at fault. -/
theorem readTrailing_fault {n : Nat} {s : List Char}
    (h : ∀ m t, CodeUnit m s t → isTrailingSurrogate m = false) :
    ∃ fault, readTrailing n s = .error fault := by
  rcases hr : readTrailing n s with fault | result
  · exact ⟨fault, rfl⟩
  exfalso
  unfold readTrailing at hr
  split at hr
  · obtain ⟨⟨m, t⟩, hhex, hr⟩ := bind_eq_ok_iff.1 hr
    dsimp only at hr
    rw [h m t (codeUnit_of_readHex hhex)] at hr
    exact throw_ne_ok hr
  all_goals cases hr

theorem readString_codeUnit {n : Nat} {done s t : List Char} (h : CodeUnit n s t)
    (hl : isLeadingSurrogate n = false) (ht : isTrailingSurrogate n = false) :
    readString done s = readString (Char.ofNat n :: done) t := by
  obtain ⟨u, rfl, hu⟩ := h.readHex
  refine readString_escape ?_
  simp only [readEscape, readUnicode, hu, bind, Except.bind, ht, hl]
  rfl

theorem readString_surrogate {n : Nat} {done s t : List Char} (h : CodeUnit n s t)
    (hl : isLeadingSurrogate n) : readString done s = match readTrailing n t with
      | .ok (c, rest) => readString (c :: done) rest
      | .error fault => .error fault := by
  obtain ⟨u, rfl, hu⟩ := h.readHex
  have ht : isTrailingSurrogate n = false := by
    simp only [isLeadingSurrogate, isTrailingSurrogate, Bool.and_eq_true, decide_eq_true_eq,
      Bool.and_eq_false_iff, decide_eq_false_iff_not] at *
    omega
  have he : readEscape ('u' :: u) = readTrailing n t := by
    simp only [readEscape, readUnicode, hu, bind, Except.bind, ht, hl]
    rfl
  rcases hr : readTrailing n t with fault | ⟨c, rest⟩
  · rw [readString_fault (he.trans hr)]
  · rw [readString_escape (he.trans hr)]

theorem readString_trailing {n : Nat} {s t : List Char} (done : List Char) (h : CodeUnit n s t)
    (ht : isTrailingSurrogate n) : ∃ fault, readString done s = .error fault := by
  obtain ⟨u, rfl, hu⟩ := h.readHex
  refine ⟨.here .loneSurrogate t, readString_fault ?_⟩
  simp only [readEscape, readUnicode, hu, bind, Except.bind, ht]
  rfl

/-- A string is read as what it denotes. -/
theorem Chars.readString {cs : Option (List Char)} {s rest : List Char} (h : Chars cs s rest)
    (done : List Char) : (readString done s).toOption =
      cs.map fun cs => (String.ofList (done.reverse ++ cs), rest) := by
  induction h generalizing done with
  | close => simp [Json.readString, Except.toOption]
  | plain hq hb hc _ ih =>
    rw [readString_plain hq hb hc, ih]
    simp [Function.comp_def]
  | @letter l c cs s rest hl _ ih =>
    have hu := unescape?_ne hl
    have he : readEscape (l :: s) = .ok (c, s) := by
      unfold readEscape
      split <;> simp_all
    rw [readString_escape he, ih]
    simp [Function.comp_def]
  | unit hn hl ht _ ih =>
    rw [readString_codeUnit hn hl ht, ih]
    simp [Function.comp_def]
  | pair hn hl hm ht _ ih =>
    rw [readString_surrogate hn hl, readTrailing_of_codeUnit hm ht]
    simp [ih, Function.comp_def]
  | lone hn hlone _ _ =>
    rcases hlone with ht | ⟨hl, hno⟩
    · obtain ⟨fault, hf⟩ := readString_trailing done hn ht
      rw [hf]
      rfl
    · obtain ⟨fault, hf⟩ := readTrailing_fault hno
      rw [readString_surrogate hn hl, hf]
      rfl

/-! ## Values after their blanks -/

/-- A value with no blanks before it, by how it begins. -/
inductive Bare : Value → List Char → List Char → Prop
  | null {rest : List Char} : Bare .null ('n' :: 'u' :: 'l' :: 'l' :: rest) rest
  | boolean {b : Bool} {c : Char} {s rest : List Char} : c ∉ ['n', '"', '[', '{'] →
      Bare (.boolean b) (c :: s) rest
  | number {c : Char} {s rest : List Char} : c ∉ ['n', '"', '[', '{'] → Bare .number (c :: s) rest
  | string {cs : Option (List Char)} {s rest : List Char} : Chars cs s rest →
      Bare (.string (cs.map String.ofList)) ('"' :: s) rest
  | array {vs : List Value} {s rest : List Char} : SpellsElements true vs s rest →
      Bare (.array vs) ('[' :: s) rest
  | object {ms : List Value.Member} {s rest : List Char} : SpellsMembers true ms s rest →
      Bare (.object ms) ('{' :: s) rest

theorem not_mem_of_opens_number {c : Char} (h : Value.number.Opens c) :
    c ∉ ['n', '"', '[', '{'] := by
  intro hc
  simp only [List.mem_cons, List.not_mem_nil, or_false] at hc
  rcases hc with rfl | rfl | rfl | rfl <;> simp [Value.Opens, isDigit] at h

theorem Spells.bare {v : Value} {s rest : List Char} (h : Spells v s rest) :
    Bare v (Json.skipBlanks s) rest := by
  cases h with
  | null hs =>
    rw [hs.skipBlanks_cons rfl]
    exact .null
  | wordTrue hs =>
    rw [hs.skipBlanks_cons rfl]
    exact .boolean (by decide)
  | wordFalse hs =>
    rw [hs.skipBlanks_cons rfl]
    exact .boolean (by decide)
  | number hs hn =>
    obtain ⟨c, u, rfl, hc⟩ := hn.head
    have hopens : Value.number.Opens c := hc
    rw [hs.skipBlanks_cons hopens.isBlank]
    exact .number (not_mem_of_opens_number hopens)
  | string hs ht =>
    rw [hs.skipBlanks_cons rfl]
    exact .string ht
  | array hs ht =>
    rw [hs.skipBlanks_cons rfl]
    exact .array ht
  | object hs ht =>
    rw [hs.skipBlanks_cons rfl]
    exact .object ht

/-- The blanks before a value can be taken away. -/
theorem Spells.trim {v : Value} {s rest : List Char} (h : Spells v s rest) :
    Spells v (Json.skipBlanks s) rest := by
  have hself {c : Char} {t : List Char} (hs : Blanks s (c :: t)) (hc : isBlank c = false) :
      Blanks (Json.skipBlanks s) (c :: t) := by
    rw [hs.skipBlanks_cons hc]
    exact .refl _
  cases h with
  | null hs => exact .null (hself hs rfl)
  | wordTrue hs => exact .wordTrue (hself hs rfl)
  | wordFalse hs => exact .wordFalse (hself hs rfl)
  | number hs hn =>
    obtain ⟨c, u, rfl, hc⟩ := hn.head
    have hopens : Value.number.Opens c := hc
    exact .number (hself hs hopens.isBlank) hn
  | string hs ht => exact .string (hself hs rfl) ht
  | array hs ht => exact .array (hself hs rfl) ht
  | object hs ht => exact .object (hself hs rfl) ht

/-! ## What is read of a value -/

def Value.text? : Value → Option String
  | string text => text
  | _ => none

def Value.elements? : Value → Option (List Value)
  | array vs => some vs
  | _ => none

def Value.members? : Value → Option (List Value.Member)
  | object ms => some ms
  | _ => none

/-- The reader takes a value to its end and makes of it what `decode` does, or fails if that is
nothing. -/
def Decodes (reader : Reader α) (decode : Value → Option α) : Prop :=
  ∀ {v : Value} {s rest : List Char}, Spells v s rest →
    (reader.read s).toOption = (decode v).map (·, rest)

section Steps

variable {ε : Type} {x : Except ε α} {f : α → Except ε β}

theorem toOption_bind : (x >>= f).toOption = x.toOption >>= fun a => (f a).toOption := by
  cases x <;> rfl

theorem toOption_eq_none (h : x.toOption = none) : ∃ e, x = .error e := by
  cases x with
  | error e => exact ⟨e, rfl⟩
  | ok a => cases h

theorem toOption_eq_some_iff {a : α} : x.toOption = some a ↔ x = .ok a := by
  cases x <;> simp [Except.toOption]

end Steps

theorem Decodes.map {reader : Reader α} {decode : Value → Option α} (h : Decodes reader decode)
    (f : α → β) : Decodes (reader.map f) fun v => (decode v).map f := by
  intro v s rest hs
  have hr := h hs
  simp only [Reader.map]
  cases hd : decode v with
  | none =>
    obtain ⟨fault, hf⟩ := toOption_eq_none (hr.trans (by rw [hd]; rfl))
    rw [hf]
    rfl
  | some x =>
    rw [toOption_eq_some_iff.1 (hr.trans (by rw [hd]; rfl))]
    rfl

theorem decodes_text (expected : String) (decode : String → Except Cause α) :
    Decodes (.text expected decode) fun v => v.text? >>= fun t => (decode t).toOption := by
  intro v s rest h
  have hv := h.bare
  simp only [Reader.text]
  generalize Json.skipBlanks s = b at hv ⊢
  cases hv with
  | @string cs t _ hcs =>
    simp only [toOption_bind, hcs.readString]
    cases cs with
    | none => rfl
    | some cs =>
      simp only [Value.text?, Option.map_some, Option.bind_eq_bind, Option.bind_some,
        List.reverse_nil, List.nil_append]
      cases decode (String.ofList cs) <;> rfl
  | boolean hc | number hc =>
    split
    · simp_all
    · rfl
  | null | array _ | object _ => rfl

theorem decodes_string : Decodes .string Value.text? := by
  intro v s rest h
  refine (decodes_text "a string" .ok h).trans ?_
  change Option.map _ (v.text? >>= pure) = _
  rw [bind_pure]

/-- What `decode` makes of a value that may be null. -/
def Value.orNull (decode : Value → Option α) : Value → Option (Option α)
  | null => some none
  | v => (decode v).map some

theorem Decodes.nullable {value : Reader α} {decode : Value → Option α}
    (h : Decodes value decode) : Decodes (.nullable value) (Value.orNull decode) := by
  intro v s rest hs
  have hv := hs.bare
  have hr := h hs.trim
  simp only [Reader.nullable]
  generalize Json.skipBlanks s = b at hv hr ⊢
  have hsome : (value.read b >>= fun r => pure (some r.1, r.2)).toOption =
      ((decode v).map some).map (·, rest) := by
    rw [toOption_bind, hr]
    cases decode v <;> rfl
  cases hv with
  | null => rfl
  | boolean hc | number hc =>
    split
    · simp_all
    · exact hsome
  | string _ | array _ | object _ => exact hsome

/-! ## Arrays -/

/-- Where the reading of the elements `vs` goes on. -/
inductive NextElement : List Value → Except Fault (Next Unit) → List Char → Prop
  | done {rest : List Char} : NextElement [] (.ok (.done rest)) rest
  | more {v : Value} {vs : List Value} {s t rest : List Char} : Spells v s t →
      SpellsElements false vs t rest → NextElement (v :: vs) (.ok (.more () s)) rest

theorem SpellsElements.step {first : Bool} {vs : List Value} {s rest : List Char}
    (h : SpellsElements first vs s rest) : NextElement vs (nextElement first s) rest := by
  cases h with
  | close hs =>
    rw [nextElement_close (hs.skipBlanks_cons rfl)]
    exact .done
  | first hv hvs =>
    obtain ⟨c, u, hu, hc⟩ := hv.skipBlanks
    have hne := hc.not_mem
    simp only [List.mem_cons, not_or] at hne
    have htrim := hv.trim
    rw [nextElement_first hu hne.2.2.2.2.1]
    rw [hu] at htrim
    exact .more htrim hvs
  | next hs hv hvs =>
    obtain ⟨c, u, hu, hc⟩ := hv.skipBlanks
    have hne := hc.not_mem
    simp only [List.mem_cons, not_or] at hne
    have htrim := hv.trim
    rw [nextElement_comma (hs.skipBlanks_cons rfl) hu hne.2.2.2.2.1]
    rw [hu] at htrim
    exact .more htrim hvs

theorem readElements_fault {element : Reader α} {first : Bool} {done : List α} {s r : List Char}
    {fault : Fault} (h : nextElement first s = .ok (.more () r))
    (hx : element.read r = .error fault) :
    Reader.readElements element first done s = .error fault := by
  rw [Reader.readElements]
  split <;> simp_all
  split <;> simp_all

theorem readElements_of_spells {element : Reader α} {decode : Value → Option α}
    (h : Decodes element decode) {first : Bool} {vs : List Value} {s rest : List Char}
    (hs : SpellsElements first vs s rest) (done : List α) :
    (Reader.readElements element first done s).toOption =
      (vs.mapM decode).map fun xs => (done.reverse ++ xs, rest) := by
  induction vs generalizing first s done with
  | nil =>
    have hnext := hs.step
    generalize hn : nextElement first s = next at hnext
    cases hnext
    rw [readElements_done hn]
    simp [Except.toOption]
  | cons v vs ih =>
    have hnext := hs.step
    generalize hn : nextElement first s = next at hnext
    cases hnext with
    | more hv hvs =>
      have hx := h hv
      cases hd : decode v with
      | none =>
        rw [hd] at hx
        obtain ⟨fault, hf⟩ := toOption_eq_none hx
        rw [readElements_fault hn hf, List.mapM_cons, hd]
        rfl
      | some x =>
        rw [hd] at hx
        rw [readElements_more hn (toOption_eq_some_iff.1 hx), ih hvs, List.mapM_cons, hd]
        cases vs.mapM decode <;> simp

theorem decodes_list {element : Reader α} {decode : Value → Option α} (h : Decodes element decode) :
    Decodes (.list element) fun v => v.elements? >>= List.mapM decode := by
  intro v s rest hs
  have hv := hs.bare
  simp only [Reader.list]
  generalize Json.skipBlanks s = b at hv ⊢
  cases hv with
  | array hvs => exact readElements_of_spells h hvs []
  | boolean hc | number hc =>
    split
    · simp_all
    · rfl
  | null | string _ | object _ => rfl

end TapeMachine.Json
