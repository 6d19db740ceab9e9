import Mathlib
import TapeMachine.Key
/-!
# Which texts are keys

`parse_eq_ok_iff`: the keys that are read are those that can be told apart in their text, each from
the one text that is written for it. `parse_eq_error_iff`: every other text is refused with the first
of the reasons that apply to it. When a reason applies is said of the text alone (`Fault.Applies`),
without looking at the parts that reading finds.
-/

namespace TapeMachine.Key

variable {text : String} {key : Key} {fault : Fault} {state symbol : List Char}

@[simp] theorem toList_format (key : Key) :
    key.format.toList = key.state.toList ++ [separator, key.symbol] :=
  String.toList_ofList

theorem format_injective : Function.Injective format := by
  intro a b h
  have h := congrArg String.toList h
  rw [toList_format, toList_format] at h
  obtain ⟨hstate, hsymbol⟩ := List.append_inj' h rfl
  cases a; cases b
  simp_all [String.toList_inj]

/-! ## Reading -/

theorem parse_of_not_mem (h : separator ∉ text.toList) : parse text = .error .noSeparator := by
  have : text.toList.dropWhile (· ≠ separator) = [] :=
    List.dropWhile_eq_nil_iff.2 fun c hc => by simpa using ne_of_mem_of_not_mem hc h
  rw [parse, this]

/-- The key whose text has these parts before and after its first separator. -/
def ofParts (state symbol : List Char) : Except Fault Key :=
  if separator ∈ symbol then .error .ambiguous
  else if state = [] then .error .emptyState
  else match symbol with
    | [c] => .ok ⟨String.ofList state, c⟩
    | _ => .error .symbolNotSingle

theorem parse_of_parts (hstate : separator ∉ state)
    (htext : text.toList = state ++ separator :: symbol) : parse text = ofParts state symbol := by
  have hne : ∀ c ∈ state, decide (c ≠ separator) = true := fun c hc => by
    simpa using ne_of_mem_of_not_mem hc hstate
  have htake : text.toList.takeWhile (· ≠ separator) = state := by
    rw [htext, List.takeWhile_append_of_pos hne]
    simp
  have hdrop : text.toList.dropWhile (· ≠ separator) = separator :: symbol := by
    rw [htext, List.dropWhile_append_of_pos hne]
    simp
  rw [parse, htake, hdrop]
  rfl

/-- A text has no separator, or parts before and after the first one. -/
theorem parts_of_text (text : String) :
    separator ∉ text.toList ∨ ∃ state symbol : List Char,
      separator ∉ state ∧ text.toList = state ++ separator :: symbol := by
  by_cases h : separator ∈ text.toList
  · obtain ⟨state, symbol, htext, hstate⟩ := List.eq_append_cons_of_mem h
    exact .inr ⟨state, symbol, hstate, htext⟩
  · exact .inl h

theorem parse_format (h : key.IsReadable) : parse key.format = .ok key := by
  obtain ⟨hempty, hstate, hsymbol⟩ := h
  have hempty : key.state.toList ≠ [] := by simpa using hempty
  rw [parse_of_parts hstate (toList_format key)]
  unfold ofParts
  rw [if_neg (by simpa using hsymbol.symm), if_neg hempty]
  simp

theorem parse_eq_ok_iff : parse text = .ok key ↔ key.IsReadable ∧ text = key.format := by
  constructor
  · intro h
    rcases parts_of_text text with hnone | ⟨state, symbol, hstate, htext⟩
    · rw [parse_of_not_mem hnone] at h
      cases h
    rw [parse_of_parts hstate htext] at h
    unfold ofParts at h
    -- of the four ways to go on, one gives a key
    split at h
    · cases h
    rename_i hsymbol
    split at h
    · cases h
    rename_i hempty
    split at h
    · cases h
      refine ⟨⟨by simpa using hempty, by simpa using hstate, ?_⟩, ?_⟩
      · simpa [eq_comm] using hsymbol
      · rw [← String.toList_inj, toList_format, htext]
        simp
    · cases h
  · rintro ⟨hr, rfl⟩
    exact parse_format hr

/-! ## Refusing -/

namespace Fault

/-- When a reason applies to a text, whether or not others do as well. -/
def Applies (text : String) : Fault → Prop
  | noSeparator => separator ∉ text.toList
  | ambiguous => 1 < text.toList.count separator
  | emptyState => ∃ symbol, text.toList = separator :: symbol
  | symbolNotSingle => ∀ key : Key, text ≠ key.format

/-- The place of a reason among all of them. -/
def rank : Fault → Nat
  | noSeparator => 0
  | ambiguous => 1
  | emptyState => 2
  | symbolNotSingle => 3

/-- The reason applies and none before it does. -/
def IsFirst (text : String) (fault : Fault) : Prop :=
  fault.Applies text ∧ ∀ other : Fault, other.rank < fault.rank → ¬ other.Applies text

theorem rank_injective : ∀ a b : Fault, a.rank = b.rank → a = b := by
  intro a b
  cases a <;> cases b <;> simp [rank]

theorem IsFirst.unique {a b : Fault} (ha : a.IsFirst text) (hb : b.IsFirst text) : a = b := by
  rcases lt_trichotomy a.rank b.rank with h | h | h
  · exact absurd ha.1 (hb.2 a h)
  · exact rank_injective a b h
  · exact absurd hb.1 (ha.2 b h)

end Fault

/-- The separators in the text of a key: the one that is written, and those in its parts. -/
theorem count_separator_format (key : Key) :
    key.format.toList.count separator =
      key.state.toList.count separator + 1 + if key.symbol = separator then 1 else 0 := by
  rw [toList_format, List.count_append, List.count_cons_self, List.count_singleton, Nat.add_assoc,
    Nat.add_comm 1]
  simp

theorem isReadable_iff :
    key.IsReadable ↔
      ¬ Fault.ambiguous.Applies key.format ∧ ¬ Fault.emptyState.Applies key.format := by
  have hempty : Fault.emptyState.Applies key.format ↔
      key.state = "" ∨ ∃ rest, key.state.toList = separator :: rest := by
    simp only [Fault.Applies, toList_format, ← String.toList_inj]
    cases key.state.toList <;> simp
  rw [hempty, Fault.Applies, count_separator_format, IsReadable]
  by_cases hsymbol : key.symbol = separator
  · simp [hsymbol]
  · simp only [hsymbol, if_false, Nat.add_zero, Nat.lt_add_left_iff_pos, List.count_pos_iff]
    constructor
    · rintro ⟨hne, hstate, -⟩
      refine ⟨hstate, ?_⟩
      rintro (h | ⟨rest, h⟩)
      · exact hne h
      · exact hstate (h ▸ List.mem_cons_self)
    · rintro ⟨hstate, h⟩
      exact ⟨fun hne => h (.inl hne), hstate, hsymbol⟩

theorem not_applies_of_isReadable (h : key.IsReadable) (fault : Fault) :
    ¬ fault.Applies key.format := by
  obtain ⟨hambiguous, hempty⟩ := isReadable_iff.1 h
  cases fault with
  | noSeparator => simp [Fault.Applies]
  | ambiguous => exact hambiguous
  | emptyState => exact hempty
  | symbolNotSingle => exact fun hne => hne key rfl

/-! When a reason applies to a text with these parts before and after its first separator. -/

section Parts

variable (hstate : separator ∉ state) (htext : text.toList = state ++ separator :: symbol)
include htext

theorem not_noSeparator_of_parts : ¬ Fault.noSeparator.Applies text := by
  simp [Fault.Applies, htext]

include hstate

theorem ambiguous_iff_of_parts : Fault.ambiguous.Applies text ↔ separator ∈ symbol := by
  rw [Fault.Applies, htext, List.count_append, List.count_cons_self,
    List.count_eq_zero_of_not_mem hstate, Nat.zero_add, Nat.lt_add_left_iff_pos, List.count_pos_iff]

theorem emptyState_iff_of_parts : Fault.emptyState.Applies text ↔ state = [] := by
  rw [Fault.Applies, htext]
  cases state with
  | nil => simp
  | cons c state => simpa using fun h : c = separator => hstate (h ▸ List.mem_cons_self)

/-- A text that cannot be read and to which neither of these applies is no key's: that key would be
readable, and the text would have been read. -/
theorem symbolNotSingle_of_parts (hs : separator ∉ symbol) (he : state ≠ [])
    (h : parse text = .error fault) : Fault.symbolNotSingle.Applies text := by
  rintro key rfl
  have hambiguous := mt (ambiguous_iff_of_parts hstate htext).1 hs
  have hempty := mt (emptyState_iff_of_parts hstate htext).1 he
  have hr := parse_format (isReadable_iff.2 ⟨hambiguous, hempty⟩)
  rw [h] at hr
  cases hr

end Parts

/-- Reading gives the first reason that applies. -/
theorem isFirst_of_parse (h : parse text = .error fault) : fault.IsFirst text := by
  rcases parts_of_text text with hnone | ⟨state, symbol, hstate, htext⟩
  · rw [parse_of_not_mem hnone] at h
    cases h
    exact ⟨hnone, fun other hlt => absurd hlt (Nat.not_lt_zero _)⟩
  have hsome := not_noSeparator_of_parts htext
  have hambiguous := ambiguous_iff_of_parts hstate htext
  have hempty := emptyState_iff_of_parts hstate htext
  have hparse := parse_of_parts hstate htext
  rw [h] at hparse
  unfold ofParts at hparse
  -- reading goes through the reasons in the order of their ranks
  by_cases hs : separator ∈ symbol
  · rw [if_pos hs] at hparse
    cases hparse
    refine ⟨hambiguous.2 hs, fun other hlt => ?_⟩
    cases other with
    | noSeparator => exact hsome
    | ambiguous | emptyState | symbolNotSingle => exact absurd hlt (by decide)
  rw [if_neg hs] at hparse
  by_cases he : state = []
  · rw [if_pos he] at hparse
    cases hparse
    refine ⟨hempty.2 he, fun other hlt => ?_⟩
    cases other with
    | noSeparator => exact hsome
    | ambiguous => exact mt hambiguous.1 hs
    | emptyState | symbolNotSingle => exact absurd hlt (by decide)
  rw [if_neg he] at hparse
  have hfault : fault = .symbolNotSingle := by
    split at hparse <;> cases hparse
    rfl
  subst hfault
  refine ⟨symbolNotSingle_of_parts hstate htext hs he h, fun other hlt => ?_⟩
  cases other with
  | noSeparator => exact hsome
  | ambiguous => exact mt hambiguous.1 hs
  | emptyState => exact mt hempty.1 he
  | symbolNotSingle => exact absurd hlt (by decide)

theorem parse_eq_error_iff : parse text = .error fault ↔ fault.IsFirst text := by
  constructor
  · exact isFirst_of_parse
  · intro h
    cases hparse : parse text with
    | error other => rw [(isFirst_of_parse hparse).unique h]
    | ok key =>
      obtain ⟨hr, rfl⟩ := parse_eq_ok_iff.1 hparse
      exact absurd h.1 (not_applies_of_isReadable hr fault)

end TapeMachine.Key
