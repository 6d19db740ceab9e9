import Mathlib
import TapeMachine.Proofs.Machine.Entries
/-!
# Keys and their texts

`readsExactly`: a text is read as a key if and only if it is the one text that is written for the
key and the parts of the key can be told apart in it. So keys that are read are never confused, a key
with a separator in its state is not read as another one, and what is refused is refused with the
first reason that applies.
-/

namespace TapeMachine.Key

variable {text : String} {key : Key}

theorem format_eq (key : Key) : key.format = key.state ++ ":" ++ String.singleton key.symbol := by
  rw [← String.toList_inj, toList_format]
  simp [separator]

/-! ## From a text -/

/-- The last reason, said without keys: no separator has just one character after it. -/
theorem symbolNotSingle_iff :
    Fault.symbolNotSingle.Applies text ↔
      ∀ state symbol : String, text = state ++ ":" ++ symbol → symbol.length ≠ 1 := by
  constructor
  · rintro h state symbol rfl hone
    obtain ⟨c, rfl⟩ := spellsSymbol_iff.1 hone
    exact h ⟨state, c⟩ (format_eq ⟨state, c⟩).symm
  · rintro h key rfl
    exact h _ _ (format_eq key) (by simp)

theorem format_of_read (h : read text = .ok key) : key.format = text :=
  (read_eq_ok_iff.1 h).2.symm

theorem exists_isFirst_of_refused (h : ∀ key, read text ≠ .ok key) : ∃ fault : Fault,
    fault.IsFirst text ∧ read text = .error (.malformedDescription (.key text fault)) := by
  cases hread : read text with
  | ok key => exact absurd hread (h key)
  | error e =>
    obtain ⟨fault, hfirst, rfl⟩ := read_eq_error_iff.1 hread
    exact ⟨fault, hfirst, rfl⟩

/-! ## From a key -/

theorem ambiguous_format_iff :
    Fault.ambiguous.Applies key.format ↔ ':' ∈ key.state.toList ∨ key.symbol = ':' := by
  rw [Fault.Applies, count_separator_format, ← List.count_pos_iff]
  by_cases hsymbol : key.symbol = ':' <;> simp [hsymbol, separator]

theorem isFirst_ambiguous_format (h : ':' ∈ key.state.toList ∨ key.symbol = ':') :
    Fault.ambiguous.IsFirst key.format := by
  refine ⟨ambiguous_format_iff.2 h, fun other hlt => ?_⟩
  cases other with
  | noSeparator => simp [Fault.Applies]
  | ambiguous | emptyState | symbolNotSingle => exact absurd hlt (by decide)

theorem isFirst_emptyState_format (h : key.state = "") (hs : key.symbol ≠ ':') :
    Fault.emptyState.IsFirst key.format := by
  refine ⟨⟨[key.symbol], by simp [h]⟩, fun other hlt => ?_⟩
  cases other with
  | noSeparator => simp [Fault.Applies]
  | ambiguous => simp [ambiguous_format_iff, h, hs]
  | emptyState | symbolNotSingle => exact absurd hlt (by decide)

/-! ## Both ways -/

/-- What reading comes to, for a text and for the text of a key. -/
structure ReadsExactly (text : String) (key : Key) : Prop where
  read_iff : read text = .ok key ↔
    text = key.format ∧ key.state ≠ "" ∧ ':' ∉ key.state.toList ∧ key.symbol ≠ ':'
  /-- Writing undoes reading. -/
  format : read text = .ok key → key.format = text
  /-- No other text is read as the same key. -/
  unique : ∀ other, read text = .ok key → read other = .ok key → other = text
  refused : (∀ key, read text ≠ .ok key) → ∃ fault : Fault, fault.IsFirst text ∧
    read text = .error (.malformedDescription (.key text fault))
  /-- When the last of the reasons applies. -/
  symbolNotSingle : Fault.symbolNotSingle.Applies text ↔
    ∀ state symbol : String, text = state ++ ":" ++ symbol → symbol.length ≠ 1
  format_eq : key.format = key.state ++ ":" ++ String.singleton key.symbol
  read_format_iff : read key.format = .ok key ↔
    key.state ≠ "" ∧ ':' ∉ key.state.toList ∧ key.symbol ≠ ':'
  /-- A separator in a part makes the text ambiguous, and then it is not read at all. -/
  ambiguous : ':' ∈ key.state.toList ∨ key.symbol = ':' →
    read key.format = .error (.malformedDescription (.key key.format .ambiguous))
  /-- That leaves keys without a state. -/
  emptyState : key.state = "" → key.symbol ≠ ':' →
    read key.format = .error (.malformedDescription (.key key.format .emptyState))

theorem readsExactly (text : String) (key : Key) : ReadsExactly text key where
  read_iff := by rw [read_eq_ok_iff, and_comm, IsReadable, separator]
  format := format_of_read
  unique other h h' := by rw [← format_of_read h, ← format_of_read h']
  refused := exists_isFirst_of_refused
  symbolNotSingle := symbolNotSingle_iff
  format_eq := format_eq key
  read_format_iff := by rw [read_eq_ok_iff, and_iff_left rfl, IsReadable, separator]
  ambiguous h := read_eq_error_iff.2 ⟨_, isFirst_ambiguous_format h, rfl⟩
  emptyState h hs := read_eq_error_iff.2 ⟨_, isFirst_emptyState_format h hs, rfl⟩

/-- One text for each reason. Two reasons apply to the second of them, and the first one is given. -/
example :
    parse "ab" = .error .noSeparator ∧ parse "::" = .error .ambiguous ∧
      parse ":a" = .error .emptyState ∧ parse "a:bc" = .error .symbolNotSingle := by
  decide

end TapeMachine.Key
