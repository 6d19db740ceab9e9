import Mathlib
import TapeMachine.Fallible
import TapeMachine.Machine.Build
import TapeMachine.Proofs.Key
import TapeMachine.Proofs.Table
/-!
# Tables of entries

Entries fill a table if each of them can be read (`Defines`) and no key comes twice, and then the table
holds the entries and nothing else (`Holds`). `ofEntries_eq_ok_iff` says both at once. Neither of the
two depends on the order of the entries, and so the table does not, either.
-/

namespace TapeMachine

/-- A transition as it is written, with its key. -/
abbrev Entry := String × Instruction

/-- The text has exactly one character. -/
def SpellsSymbol (text : String) : Prop := text.length = 1

theorem spellsSymbol_iff {text : String} : SpellsSymbol text ↔ ∃ s, text = String.singleton s := by
  rw [SpellsSymbol, ← String.length_toList, List.length_eq_one_iff]
  simp [← String.toList_inj]

/-- The entry can be read, and `t` is what it gives for `key`. -/
def Defines (entry : Entry) (key : Key) (t : Transition) : Prop :=
  key.IsReadable ∧ entry = (key.format, t.toInstruction)

variable {text : String} {instruction : Instruction} {key : Key} {t : Transition} {e : Error}

theorem toInstruction_injective : Function.Injective Transition.toInstruction := by
  rintro ⟨next, write, direction⟩ ⟨next', write', direction'⟩ h
  simpa [Transition.toInstruction, ← String.toList_inj] using h

theorem exists_toInstruction_iff :
    (∃ t : Transition, instruction = t.toInstruction) ↔ SpellsSymbol instruction.write := by
  rw [spellsSymbol_iff]
  constructor
  · rintro ⟨t, rfl⟩
    exact ⟨t.write, rfl⟩
  · rintro ⟨s, hs⟩
    exact ⟨⟨instruction.next, s, instruction.direction⟩, by rw [Transition.toInstruction, ← hs]⟩

theorem exists_defines_iff {entry : Entry} :
    (∃ key t, Defines entry key t) ↔
      SpellsSymbol entry.2.write ∧ ∃ key : Key, key.IsReadable ∧ entry.1 = key.format := by
  rw [← exists_toInstruction_iff]
  constructor
  · rintro ⟨key, t, hr, rfl⟩
    exact ⟨⟨t, rfl⟩, key, hr, rfl⟩
  · rintro ⟨⟨t, ht⟩, key, hr, hkey⟩
    exact ⟨key, t, hr, Prod.ext hkey ht⟩

/-! ## Symbols and keys -/

theorem Symbol.parse_eq_ok_iff {part value : String} {s : Symbol} :
    Symbol.parse part value = .ok s ↔ value = String.singleton s := by
  rw [← Symbol.ofString?_eq_some_iff, Symbol.parse]
  cases Symbol.ofString? value <;> simp

theorem Symbol.parse_eq_error_iff {part value : String} :
    Symbol.parse part value = .error e ↔
      ¬ SpellsSymbol value ∧ e = .malformedDescription (.symbol part value) := by
  rw [spellsSymbol_iff]
  simp only [← Symbol.ofString?_eq_some_iff, Symbol.parse]
  cases Symbol.ofString? value <;> simp [eq_comm]

theorem Key.read_eq_ok_iff : Key.read text = .ok key ↔ key.IsReadable ∧ text = key.format := by
  rw [← Key.parse_eq_ok_iff, Key.read]
  cases Key.parse text <;> simp

theorem Key.read_eq_error_iff :
    Key.read text = .error e ↔
      ∃ fault : Key.Fault, fault.IsFirst text ∧ e = .malformedDescription (.key text fault) := by
  simp only [← Key.parse_eq_error_iff, Key.read]
  cases Key.parse text <;> simp [eq_comm]

theorem spellsSymbol_of_mapM {part : String} {texts : List String} {symbols : List Symbol}
    (h : texts.mapM (Symbol.parse part) = .ok symbols) : ∀ text ∈ texts, SpellsSymbol text := by
  rw [mapM_eq_ok_iff fun _ _ => Symbol.parse_eq_ok_iff] at h
  subst h
  intro text ht
  obtain ⟨s, -, rfl⟩ := List.mem_map.1 ht
  exact spellsSymbol_iff.2 ⟨s, rfl⟩

/-! ## One entry -/

namespace Table

variable {table table' : Table} {entries entries' : List Entry}

theorem addEntry_eq_ok_iff :
    table.addEntry text instruction = .ok table' ↔ ∃ key t, Defines (text, instruction) key t ∧
      table.lookup key.state key.symbol = none ∧ table' = table.insert key t := by
  rw [addEntry, bind_eq_ok_iff]
  constructor
  · rintro ⟨key, hkey, h⟩
    obtain ⟨hr, rfl⟩ := Key.read_eq_ok_iff.1 hkey
    obtain ⟨s, hs, h⟩ := bind_eq_ok_iff.1 h
    have hs := Symbol.parse_eq_ok_iff.1 hs
    cases hl : table.lookup key.state key.symbol with
    | some _ =>
      rw [hl] at h
      exact absurd h throw_ne_ok
    | none =>
      rw [hl] at h
      cases pure_eq_ok_iff.1 h
      refine ⟨key, ⟨instruction.next, s, instruction.direction⟩, ⟨hr, ?_⟩, hl, rfl⟩
      rw [Transition.toInstruction, ← hs]
  · rintro ⟨key, t, ⟨hr, hentry⟩, hl, rfl⟩
    cases hentry
    refine ⟨key, Key.read_eq_ok_iff.2 ⟨hr, rfl⟩, bind_eq_ok_iff.2 ⟨t.write, ?_, ?_⟩⟩
    · exact Symbol.parse_eq_ok_iff.2 rfl
    · rw [hl]
      rfl

/-- What keeps an entry out of a table: its key, else its symbol, else what the table has at the
key. -/
theorem addEntry_eq_error_iff :
    table.addEntry text instruction = .error e ↔
      (∃ fault : Key.Fault, fault.IsFirst text ∧ e = .malformedDescription (.key text fault)) ∨
      ∃ key : Key, key.IsReadable ∧ text = key.format ∧
        ((¬ SpellsSymbol instruction.write ∧ e = .malformedDescription
          (.symbol ("write symbol of " ++ Text.quoted text) instruction.write)) ∨
        (SpellsSymbol instruction.write ∧ table.lookup key.state key.symbol ≠ none ∧
          e = .duplicateKey key)) := by
  rw [addEntry, bind_eq_error_iff, Key.read_eq_error_iff]
  refine or_congr_right (exists_congr fun key => ?_)
  rw [Key.read_eq_ok_iff, bind_eq_error_iff, Symbol.parse_eq_error_iff, and_assoc, spellsSymbol_iff]
  refine and_congr_right fun _ => and_congr_right fun _ => or_congr_right ?_
  simp only [Symbol.parse_eq_ok_iff]
  cases hl : table.lookup key.state key.symbol <;>
    simp [throw, throwThe, MonadExceptOf.throw, pure, Except.pure, eq_comm]

/-! ## All entries -/

/-- The table holds the entries and nothing else. -/
structure Holds (table : Table) (entries : List Entry) : Prop where
  noEmptyRow : table.NoEmptyRow
  lookup : ∀ state symbol t, table.lookup state symbol = some t ↔
    (Key.format ⟨state, symbol⟩, t.toInstruction) ∈ entries

/-- Each entry can be read and no key comes twice. -/
structure Consistent (entries : List Entry) : Prop where
  defines : ∀ entry ∈ entries, ∃ key t, Defines entry key t
  distinct : (entries.map (·.1)).Nodup

/-- Consistent entries write symbols, have keys that can be read and repeat none of them. -/
theorem consistent_iff :
    Consistent entries ↔ (∀ entry ∈ entries, SpellsSymbol entry.2.write) ∧
      (∀ entry ∈ entries, ∃ key : Key, key.IsReadable ∧ entry.1 = key.format) ∧
      (entries.map (·.1)).Nodup := by
  constructor
  · rintro ⟨hd, hn⟩
    exact ⟨fun entry he => (exists_defines_iff.1 (hd entry he)).1,
      fun entry he => (exists_defines_iff.1 (hd entry he)).2, hn⟩
  · rintro ⟨hw, hk, hn⟩
    exact ⟨fun entry he => exists_defines_iff.2 ⟨hw entry he, hk entry he⟩, hn⟩

theorem holds_empty : empty.Holds [] where
  noEmptyRow := noEmptyRow_empty
  lookup state symbol t := by simp

theorem Holds.unique (h : table.Holds entries) (h' : table'.Holds entries) : table = table' := by
  refine ext_lookup h.noEmptyRow h'.noEmptyRow fun state symbol => ?_
  ext t
  rw [h.lookup, h'.lookup]

theorem Holds.perm (h : table.Holds entries) (hp : entries.Perm entries') :
    table.Holds entries' where
  noEmptyRow := h.noEmptyRow
  lookup state symbol t := by rw [h.lookup, hp.mem_iff]

theorem Consistent.perm (h : Consistent entries) (hp : entries.Perm entries') :
    Consistent entries' where
  defines entry hentry := h.defines entry (hp.mem_iff.2 hentry)
  distinct := (hp.map _).nodup_iff.1 h.distinct

theorem Consistent.sublist (h : Consistent entries) (hs : entries'.Sublist entries) :
    Consistent entries' where
  defines entry hentry := h.defines entry (hs.mem hentry)
  distinct := h.distinct.sublist (hs.map _)

theorem consistent_append_singleton_iff {entry : Entry} :
    Consistent (entries ++ [entry]) ↔
      Consistent entries ∧ (∃ key t, Defines entry key t) ∧ entry.1 ∉ entries.map (·.1) := by
  have hdistinct : ((entries ++ [entry]).map (·.1)).Nodup ↔
      (entries.map (·.1)).Nodup ∧ entry.1 ∉ entries.map (·.1) := by
    rw [List.map_append, List.map_singleton, List.nodup_append_comm, List.singleton_append,
      List.nodup_cons, and_comm]
  constructor
  · rintro ⟨hd, hn⟩
    obtain ⟨hn, hnew⟩ := hdistinct.1 hn
    exact ⟨⟨fun other hother => hd other (List.mem_append_left _ hother), hn⟩,
      hd entry (List.mem_append_right _ (List.mem_singleton_self entry)), hnew⟩
  · rintro ⟨⟨hd, hn⟩, hentry, hnew⟩
    refine ⟨fun other hother => ?_, hdistinct.2 ⟨hn, hnew⟩⟩
    rcases List.mem_append.1 hother with hother | hother
    · exact hd other hother
    · rwa [List.mem_singleton.1 hother]

/-- A key is free if and only if no entry has it. -/
theorem Holds.lookup_eq_none_iff (h : table.Holds entries) (hf : Consistent entries) :
    table.lookup key.state key.symbol = none ↔ key.format ∉ entries.map (·.1) := by
  rw [Option.eq_none_iff_forall_ne_some, List.mem_map, not_exists]
  constructor
  · rintro hnone ⟨text, instruction⟩ ⟨hmem, rfl⟩
    obtain ⟨key', t, hr, heq⟩ := hf.defines _ hmem
    obtain ⟨hkey, rfl⟩ := Prod.mk.inj heq
    exact hnone t ((h.lookup _ _ _).2 hmem)
  · intro hnone t ht
    exact hnone _ ⟨(h.lookup _ _ _).1 ht, rfl⟩

/-- What a table that holds consistent entries has at a key is what one of them defines. -/
theorem Holds.lookup_iff_defines {state : State} {symbol : Symbol} (h : table.Holds entries)
    (hc : Consistent entries) :
    table.lookup state symbol = some t ↔ ∃ entry ∈ entries, Defines entry ⟨state, symbol⟩ t := by
  rw [h.lookup]
  constructor
  · intro hmem
    obtain ⟨key', t', hr, heq⟩ := hc.defines _ hmem
    obtain ⟨hkey, -⟩ := Prod.mk.inj heq
    cases Key.format_injective hkey
    exact ⟨_, hmem, hr, rfl⟩
  · rintro ⟨entry, hmem, -, rfl⟩
    exact hmem

theorem Holds.insert (h : table.Holds entries) (hl : table.lookup key.state key.symbol = none)
    (t : Transition) : (table.insert key t).Holds (entries ++ [(key.format, t.toInstruction)]) where
  noEmptyRow := h.noEmptyRow.insert key t
  lookup state symbol u := by
    rw [lookup_insert, List.mem_append, List.mem_singleton, ← h.lookup]
    by_cases hkey : key.state = state ∧ key.symbol = symbol
    · obtain ⟨rfl, rfl⟩ := hkey
      simp [hl, toInstruction_injective.eq_iff, eq_comm]
    · have hne : Key.format ⟨state, symbol⟩ ≠ key.format := by
        intro heq
        cases Key.format_injective heq
        exact hkey ⟨rfl, rfl⟩
      simp [hkey, hne]

theorem ofEntries_append_singleton (entry : Entry) :
    ofEntries (entries ++ [entry]) = ofEntries entries >>= (·.addEntry entry.1 entry.2) := by
  simp [ofEntries]

/-- What filling a table comes to, entry by entry. -/
theorem consistent_and_holds (h : ofEntries entries = .ok table) :
    Consistent entries ∧ table.Holds entries := by
  -- on the last entry, which comes to a table that holds those before it
  induction entries using List.reverseRecOn generalizing table with
  | nil =>
    cases h
    exact ⟨⟨by simp, by simp⟩, holds_empty⟩
  | append_singleton entries entry ih =>
    rw [ofEntries_append_singleton, bind_eq_ok_iff] at h
    obtain ⟨before, hbefore, h⟩ := h
    obtain ⟨hc, hh⟩ := ih hbefore
    obtain ⟨key, t, hd, hl, rfl⟩ := addEntry_eq_ok_iff.1 h
    have hentry : entry = (key.format, t.toInstruction) := hd.2
    subst hentry
    have hnew : key.format ∉ entries.map (·.1) := (hh.lookup_eq_none_iff hc).1 hl
    constructor
    · exact consistent_append_singleton_iff.2 ⟨hc, ⟨key, t, hd⟩, hnew⟩
    · exact hh.insert hl t

theorem exists_ofEntries (h : Consistent entries) : ∃ table, ofEntries entries = .ok table := by
  induction entries using List.reverseRecOn with
  | nil => exact ⟨empty, rfl⟩
  | append_singleton entries entry ih =>
    obtain ⟨hc, ⟨key, t, hd⟩, hnew⟩ := consistent_append_singleton_iff.1 h
    obtain ⟨before, hbefore⟩ := ih hc
    have hh := (consistent_and_holds hbefore).2
    have hl : before.lookup key.state key.symbol = none := by
      rw [hh.lookup_eq_none_iff hc]
      simpa [hd.2] using hnew
    refine ⟨before.insert key t, ?_⟩
    rw [ofEntries_append_singleton, bind_eq_ok_iff]
    exact ⟨before, hbefore, addEntry_eq_ok_iff.2 ⟨key, t, hd, hl, rfl⟩⟩

/-- Rules whose keys can be read and differ fill a table when they are written down, and the table is
the one that has them set one after the other. -/
theorem ofEntries_rules {rules : List (Key × Transition)} (hr : ∀ rule ∈ rules, rule.1.IsReadable)
    (hn : (rules.map (·.1)).Nodup) :
    ofEntries (rules.map fun rule => (rule.1.format, rule.2.toInstruction)) =
      .ok (rules.foldl (fun table rule => table.insert rule.1 rule.2) empty) := by
  induction rules using List.reverseRecOn with
  | nil => rfl
  | append_singleton rules rule ih =>
    obtain ⟨key, t⟩ := rule
    rw [List.map_append, List.map_singleton, List.nodup_append_comm, List.singleton_append,
      List.nodup_cons] at hn
    have hbefore := ih (fun other hother => hr other (List.mem_append_left _ hother)) hn.2
    obtain ⟨hc, hh⟩ := consistent_and_holds hbefore
    have hnew : key.format ∉
        (rules.map fun rule => (rule.1.format, rule.2.toInstruction)).map (·.1) := by
      simpa [Key.format_injective.eq_iff] using hn.1
    have hreadable : key.IsReadable :=
      hr (key, t) (List.mem_append_right _ (List.mem_singleton_self _))
    rw [List.map_append, List.map_singleton, ofEntries_append_singleton, bind_eq_ok_iff,
      List.foldl_append]
    exact ⟨_, hbefore, addEntry_eq_ok_iff.2
      ⟨key, t, ⟨hreadable, rfl⟩, (hh.lookup_eq_none_iff hc).2 hnew, rfl⟩⟩

/-- Entries fill a table if and only if they are consistent, and then the table holds them. -/
theorem ofEntries_eq_ok_iff :
    ofEntries entries = .ok table ↔ Consistent entries ∧ table.Holds entries := by
  constructor
  · exact consistent_and_holds
  · rintro ⟨hc, hh⟩
    -- the entries fill some table, and there is only one that holds them
    obtain ⟨table', h⟩ := exists_ofEntries hc
    rw [h, (consistent_and_holds h).2.unique hh]

end Table

end TapeMachine
