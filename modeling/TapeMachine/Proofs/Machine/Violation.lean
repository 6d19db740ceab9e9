import Mathlib
import TapeMachine.Proofs.Machine.Build
/-!
# What is wrong with a description

A description can be wrong in many places at once. `Description.Violates` says what is wrong with
each place on its own and which error tells it. `build_iff`: if nothing is wrong the description is
built, and else the error is that of the first wrong place: the blank, the alphabet in order, then
the entries in order and of each its key, its symbol and its being a repetition.
-/

namespace TapeMachine

/-! ## Entries -/

/-- A part of an entry that can be wrong. -/
inductive Part where
  | key
  | write
  | repetition
  deriving DecidableEq, Repr

/-- The place of a part among all of them. -/
def Part.rank : Part → Nat
  | key => 0
  | write => 1
  | repetition => 2

/-- What is wrong with a part of an entry that comes after others. -/
inductive EntryViolates (before : List Entry) (entry : Entry) : Part → Error → Prop
  | key {fault : Key.Fault} : fault.IsFirst entry.1 →
    EntryViolates before entry .key (.malformedDescription (.key entry.1 fault))
  | write : ¬ SpellsSymbol entry.2.write →
    EntryViolates before entry .write (.malformedDescription
      (.symbol ("write symbol of " ++ Text.quoted entry.1) entry.2.write))
  | repetition {key : Key} : entry.1 = key.format → entry.1 ∈ before.map (·.1) →
    EntryViolates before entry .repetition (.duplicateKey key)

section Entries

variable {before : List Entry} {entry : Entry} {part part' : Part} {e e' : Error} {table : Table}

/-- One part has one error. -/
theorem EntryViolates.unique (h : EntryViolates before entry part e)
    (h' : EntryViolates before entry part e') : e = e' := by
  cases h with
  | key hf =>
    obtain ⟨hf'⟩ := h'
    rw [hf.unique hf']
  | write => cases h'; rfl
  | repetition hk =>
    obtain _ | _ | ⟨hk'⟩ := h'
    rw [Key.format_injective (hk.symm.trans hk')]

theorem not_entryViolates (h : Table.Consistent (before ++ [entry])) :
    ¬ EntryViolates before entry part e := by
  obtain ⟨-, hd, hnew⟩ := Table.consistent_append_singleton_iff.1 h
  obtain ⟨hw, key, hr, hk⟩ := exists_defines_iff.1 hd
  rintro (hf | hw' | ⟨-, hold⟩)
  · exact Key.not_applies_of_isReadable hr _ (hk ▸ hf.1)
  · exact hw' hw
  · exact hnew hold

theorem not_entryViolates_of_getElem? {entries : List Entry} {i : Nat}
    (h : Table.Consistent entries) (hi : entries[i]? = some entry) :
    ¬ EntryViolates (entries.take i) entry part e := by
  refine not_entryViolates (h.sublist ?_)
  rw [← Option.toList_some, ← hi, ← List.take_add_one]
  exact List.take_sublist (i + 1) entries

/-- What keeps an entry out of a table is the first part of it that is wrong. -/
theorem exists_first_part (hc : Table.Consistent before) (hh : table.Holds before)
    (h : table.addEntry entry.1 entry.2 = .error e) :
    ∃ part, EntryViolates before entry part e ∧
      ∀ part' e', EntryViolates before entry part' e' → part.rank ≤ part'.rank := by
  rcases Table.addEntry_eq_error_iff.1 h with ⟨fault, hf, rfl⟩ | ⟨key, hr, hk, h⟩
  · exact ⟨.key, .key hf, fun _ _ _ => Nat.zero_le _⟩
  -- the key can be read, so only the parts after it can be wrong
  have hkey : ∀ e', ¬ EntryViolates before entry .key e' := by
    rintro _ ⟨hf⟩
    exact Key.not_applies_of_isReadable hr _ (hk ▸ hf.1)
  rcases h with ⟨hw, rfl⟩ | ⟨hw, hl, rfl⟩
  · refine ⟨.write, .write hw, fun part' e' h' => ?_⟩
    cases part' with
    | key => exact absurd h' (hkey e')
    | write | repetition => decide
  · rw [ne_eq, hh.lookup_eq_none_iff hc, not_not, ← hk] at hl
    refine ⟨.repetition, .repetition hk hl, fun part' e' h' => ?_⟩
    cases part' with
    | key => exact absurd h' (hkey e')
    | write => cases h' with | write hw' => exact absurd hw hw'
    | repetition => exact le_rfl

end Entries

/-! ## Descriptions -/

/-- A place in a description that can be wrong. -/
inductive Place where
  | blank
  | alphabet (index : Nat)
  | entry (index : Nat) (part : Part)
  deriving DecidableEq, Repr

/-- The rank of a place among all of them, with ranks in lexicographic order. -/
def Place.rank : Place → ℕ ×ₗ ℕ ×ₗ ℕ
  | blank => toLex (0, toLex (0, 0))
  | alphabet index => toLex (1, toLex (index, 0))
  | entry index part => toLex (2, toLex (index, part.rank))

namespace Place

variable {i j : Nat} {part part' : Part}

theorem rank_injective : Function.Injective rank := by
  intro a b h
  cases a <;> cases b <;> simp_all [rank]
  rename_i p _ q
  cases p <;> cases q <;> simp_all [Part.rank]

theorem blank_le (place : Place) : blank.rank ≤ place.rank := by
  cases place <;> simp [rank, Prod.Lex.toLex_le_toLex]

theorem alphabet_le_alphabet_iff : (alphabet i).rank ≤ (alphabet j).rank ↔ i ≤ j := by
  simp [rank, Prod.Lex.toLex_le_toLex, Nat.le_iff_lt_or_eq]

theorem alphabet_le_entry : (alphabet i).rank ≤ (entry j part).rank := by
  simp [rank, Prod.Lex.toLex_le_toLex]

theorem entry_le_entry_iff :
    (entry i part).rank ≤ (entry j part').rank ↔ i < j ∨ i = j ∧ part.rank ≤ part'.rank := by
  simp [rank, Prod.Lex.toLex_le_toLex, Nat.le_iff_lt_or_eq]

end Place

namespace Description

variable {d : Description} {m : Machine} {place place' : Place} {e e' : Error}

/-- What is wrong with a place, and the error that tells it. -/
inductive Violates (d : Description) : Place → Error → Prop
  | blank : ¬ SpellsSymbol d.blank →
    Violates d .blank (.malformedDescription (.symbol "blank" d.blank))
  | alphabet {i : Nat} {text : String} : d.alphabet[i]? = some text → ¬ SpellsSymbol text →
    Violates d (.alphabet i) (.malformedDescription (.symbol "alphabet symbol" text))
  | entry {i : Nat} {entry : Entry} {part : Part} {e : Error} : d.transitions[i]? = some entry →
    EntryViolates (d.transitions.take i) entry part e → Violates d (.entry i part) e

/-- The place is wrong and none before it is. -/
def FirstViolates (d : Description) (place : Place) (e : Error) : Prop :=
  d.Violates place e ∧ ∀ place' e', d.Violates place' e' → place.rank ≤ place'.rank

theorem Violates.unique (h : d.Violates place e) (h' : d.Violates place e') : e = e' := by
  cases h with
  | blank => cases h'; rfl
  | alphabet hi =>
    obtain _ | ⟨hi', -⟩ := h'
    rw [Option.some.inj (hi.symm.trans hi')]
  | entry hi h =>
    obtain _ | _ | ⟨hi', h'⟩ := h'
    cases hi.symm.trans hi'
    exact h.unique h'

/-- There is only one first error. -/
theorem FirstViolates.unique (h : d.FirstViolates place e) (h' : d.FirstViolates place' e') :
    e = e' := by
  have hrank := le_antisymm (h.2 _ _ h'.1) (h'.2 _ _ h.1)
  cases Place.rank_injective hrank
  exact h.1.unique h'.1

theorem not_violates (h : d.IsExecutable) : ¬ d.Violates place e := by
  rintro (hb | ⟨hi, ht⟩ | ⟨hi, hv⟩)
  · exact hb h.blank
  · exact ht (h.alphabet _ (List.mem_of_getElem? hi))
  · exact not_entryViolates_of_getElem? (Table.consistent_iff.2 ⟨h.write, h.key, h.distinct⟩) hi hv

/-- An alphabet fails at the first text in it that is no symbol. -/
theorem firstViolates_alphabet {text : String} {before after : List String}
    (hb : SpellsSymbol d.blank) (hd : d.alphabet = before ++ text :: after)
    (hbefore : ∀ text ∈ before, SpellsSymbol text) (ht : ¬ SpellsSymbol text) :
    d.FirstViolates (.alphabet before.length)
      (.malformedDescription (.symbol "alphabet symbol" text)) := by
  refine ⟨.alphabet (by simp [hd]) ht, fun place' e' h' => ?_⟩
  cases h' with
  | blank hb' => exact absurd hb hb'
  | alphabet hj ht' =>
    rw [Place.alphabet_le_alphabet_iff]
    by_contra hlt
    rw [hd, List.getElem?_append_left (Nat.lt_of_not_le hlt)] at hj
    exact ht' (hbefore _ (List.mem_of_getElem? hj))
  | entry => exact Place.alphabet_le_entry

/-- Entries fail at the first of them that the table of those before does not take. -/
theorem exists_firstViolates_entry {entry : Entry} {before after : List Entry} {table : Table}
    (hb : SpellsSymbol d.blank) (ha : ∀ text ∈ d.alphabet, SpellsSymbol text)
    (hd : d.transitions = before ++ entry :: after) (hbefore : Table.ofEntries before = .ok table)
    (h : table.addEntry entry.1 entry.2 = .error e) : ∃ place, d.FirstViolates place e := by
  obtain ⟨hc, hh⟩ := Table.ofEntries_eq_ok_iff.1 hbefore
  obtain ⟨part, hv, hfirst⟩ := exists_first_part hc hh h
  have hget : d.transitions[before.length]? = some entry := by simp [hd]
  have htake : d.transitions.take before.length = before := by simp [hd]
  refine ⟨.entry before.length part, .entry hget (by rwa [htake]), fun place' e' h' => ?_⟩
  cases h' with
  | blank hb' => exact absurd hb hb'
  | alphabet hi ht => exact absurd (ha _ (List.mem_of_getElem? hi)) ht
  | @entry j entry' part' _ hj hv' =>
    rw [Place.entry_le_entry_iff]
    rcases lt_trichotomy before.length j with hlt | rfl | hlt
    · exact .inl hlt
    · rw [htake] at hv'
      have heq : entry = entry' := by simpa [hd] using hj
      exact .inr ⟨rfl, hfirst part' e' (heq ▸ hv')⟩
    · -- an entry before it is one of those that fill the table
      rw [hd, List.getElem?_append_left hlt] at hj
      rw [hd, List.take_append_of_le_length hlt.le] at hv'
      exact absurd hv' (not_entryViolates_of_getElem? hc hj)

theorem exists_firstViolates (h : d.build = .error e) : ∃ place, d.FirstViolates place e := by
  rw [build, bind_eq_error_iff, Symbol.parse_eq_error_iff] at h
  rcases h with ⟨hb, rfl⟩ | ⟨blank, hblank, h⟩
  · exact ⟨.blank, .blank hb, fun place' _ _ => place'.blank_le⟩
  have hb := spellsSymbol_iff.2 ⟨blank, Symbol.parse_eq_ok_iff.1 hblank⟩
  rcases bind_eq_error_iff.1 h with h | ⟨alphabet, halphabet, h⟩
  · obtain ⟨before, text, after, symbols, hd, hbefore, h⟩ := mapM_eq_error_iff.1 h
    obtain ⟨ht, rfl⟩ := Symbol.parse_eq_error_iff.1 h
    exact ⟨_, firstViolates_alphabet hb hd (spellsSymbol_of_mapM hbefore) ht⟩
  rcases bind_eq_error_iff.1 h with h | ⟨table, -, h⟩
  · obtain ⟨before, entry, after, table, hd, hbefore, h⟩ := foldlM_eq_error_iff.1 h
    exact exists_firstViolates_entry hb (spellsSymbol_of_mapM halphabet) hd hbefore h
  · exact absurd h pure_ne_error

/-- Building succeeds on the executable descriptions and no others, gives their table, and else
tells the error of the first place that is wrong. -/
theorem build_iff (d : Description) :
    ((∃ m, d.build = .ok m) ↔ d.IsExecutable) ∧
    (∀ m, d.build = .ok m → m.Tabulates d.transitions) ∧
    ∀ e, d.build = .error e ↔ ∃ place, d.FirstViolates place e := by
  refine ⟨exists_build_iff, fun m h => ?_, fun e => ⟨exists_firstViolates, ?_⟩⟩
  · obtain ⟨-, hc, hh⟩ := build_eq_ok_iff.1 h
    exact Machine.tabulates hc hh
  · rintro ⟨place, h⟩
    cases hbuild : d.build with
    | ok m => exact absurd h.1 (not_violates (exists_build_iff.1 ⟨m, hbuild⟩))
    | error e' =>
      obtain ⟨place', h'⟩ := exists_firstViolates hbuild
      rw [h'.unique h]

/-- A description that is built, and what keeps it from being built with an entry more, of which both
the symbol and the repeated key are wrong. -/
theorem build_iff_backAndForth :
    Machine.backAndForth.Tabulates backAndForth.transitions ∧ backAndForth.IsExecutable ∧
      ∃ place, FirstViolates
        { backAndForth with transitions := backAndForth.transitions ++ [("a:_", ⟨"h", "00", .stay⟩)] }
        place (.malformedDescription (.symbol "write symbol of \"a:_\"" "00")) :=
  ⟨(build_iff backAndForth).2.1 _ build_backAndForth,
    (build_iff backAndForth).1.1 ⟨_, build_backAndForth⟩,
    ((build_iff _).2.2 _).1 rfl⟩

end Description

end TapeMachine
