import Mathlib
import TapeMachine.Proofs.Machine.Entries
/-!
# Descriptions that can be built

`build_eq_ok_iff`: a description builds a machine if and only if it is what the machine is described
as, up to the order of its transitions, and these are consistent and make up the table. Which
descriptions these are is said without a machine by `IsExecutable`; that the table has every entry
once, and nothing else, by `Machine.Tabulates`.
-/

namespace TapeMachine

/-! ## The entries of a table -/

namespace Machine

variable {m : Machine} {entries : List Entry}

/-- The machine's table is that of the entries: each of them is found in it, listed once and counted
once, and nothing else is. -/
structure Tabulates (m : Machine) (entries : List Entry) : Prop where
  transition : ∀ state symbol t, m.transition? state symbol = some t ↔
    (Key.format ⟨state, symbol⟩, t.toInstruction) ∈ entries
  listed : m.entries.Perm entries
  size : m.table.size = entries.length

theorem nodup_entries (m : Machine) : m.entries.Nodup := by
  refine m.table.nodup_rules.map fun a b h => ?_
  obtain ⟨hkey, ht⟩ := Prod.mk.inj h
  cases a; cases b
  cases Key.format_injective hkey
  cases toInstruction_injective ht
  rfl

theorem mem_entries_iff {entry : Entry} :
    entry ∈ m.entries ↔ ∃ (key : Key) (t : Transition), m.table.lookup key.state key.symbol = some t ∧
      entry = (key.format, t.toInstruction) := by
  simp only [entries, List.mem_map, Table.mem_rules]
  constructor
  · rintro ⟨rule, hrule, rfl⟩
    exact ⟨⟨rule.state, rule.symbol⟩, rule.transition, hrule, rfl⟩
  · rintro ⟨key, t, hl, rfl⟩
    exact ⟨⟨key.state, key.symbol, t⟩, hl, rfl⟩

theorem perm_entries (hc : Table.Consistent entries) (hh : m.table.Holds entries) :
    m.entries.Perm entries := by
  rw [List.perm_ext_iff_of_nodup m.nodup_entries hc.distinct.of_map]
  intro entry
  rw [mem_entries_iff]
  constructor
  · rintro ⟨key, t, hl, rfl⟩
    exact (hh.lookup _ _ _).1 hl
  · intro hentry
    obtain ⟨key, t, -, rfl⟩ := hc.defines entry hentry
    exact ⟨key, t, (hh.lookup _ _ _).2 hentry, rfl⟩

theorem tabulates (hc : Table.Consistent entries) (hh : m.table.Holds entries) :
    m.Tabulates entries where
  transition := hh.lookup
  listed := perm_entries hc hh
  size := by
    rw [← (perm_entries hc hh).length_eq, Machine.entries, List.length_map, Table.length_rules]

end Machine

/-! ## Building -/

namespace Description

variable {d : Description} {m : Machine}

theorem build_eq_ok_iff :
    d.build = .ok m ↔ d = { m.toDescription with transitions := d.transitions } ∧
      Table.Consistent d.transitions ∧ m.table.Holds d.transitions := by
  have halphabet {alphabet : List Symbol} :
      d.alphabet.mapM (Symbol.parse "alphabet symbol") = .ok alphabet ↔
        d.alphabet = alphabet.map String.singleton :=
    mapM_eq_ok_iff fun _ _ => Symbol.parse_eq_ok_iff
  simp only [build, bind_eq_ok_iff, Symbol.parse_eq_ok_iff, halphabet, pure_eq_ok_iff,
    ← Table.ofEntries_eq_ok_iff]
  rcases d with ⟨name, states, alphabet, blank, transitions, start, halt⟩
  constructor
  · rintro ⟨blank', rfl, alphabet', rfl, table, ht, rfl⟩
    exact ⟨rfl, ht⟩
  · rintro ⟨hd, ht⟩
    cases hd
    exact ⟨m.blank, rfl, m.alphabet, rfl, m.table, ht, rfl⟩

/-- All that running needs can be read, and no key comes twice. -/
structure IsExecutable (d : Description) : Prop where
  blank : SpellsSymbol d.blank
  alphabet : ∀ text ∈ d.alphabet, SpellsSymbol text
  write : ∀ entry ∈ d.transitions, SpellsSymbol entry.2.write
  key : ∀ entry ∈ d.transitions, ∃ key : Key, key.IsReadable ∧ entry.1 = key.format
  distinct : (d.transitions.map (·.1)).Nodup

theorem exists_build_iff : (∃ m, d.build = .ok m) ↔ d.IsExecutable := by
  constructor
  · rintro ⟨m, h⟩
    obtain ⟨hd, hc, -⟩ := build_eq_ok_iff.1 h
    obtain ⟨hw, hk, hn⟩ := Table.consistent_iff.1 hc
    refine ⟨?_, ?_, hw, hk, hn⟩
    · rw [hd]
      exact spellsSymbol_iff.2 ⟨m.blank, rfl⟩
    · rw [hd]
      intro text ht
      obtain ⟨s, -, rfl⟩ := List.mem_map.1 ht
      exact spellsSymbol_iff.2 ⟨s, rfl⟩
  · rintro ⟨hblank, halphabet, hw, hk, hn⟩
    obtain ⟨blank, hb⟩ := spellsSymbol_iff.1 hblank
    obtain ⟨alphabet, ha⟩ : d.alphabet ∈ Set.range (List.map String.singleton) := by
      rw [Set.range_list_map]
      intro text ht
      obtain ⟨s, hs⟩ := spellsSymbol_iff.1 (halphabet text ht)
      exact ⟨s, hs.symm⟩
    have hc := Table.consistent_iff.2 ⟨hw, hk, hn⟩
    obtain ⟨table, ht⟩ := Table.exists_ofEntries hc
    refine ⟨⟨d.name, d.states, alphabet, blank, table, d.start, d.halt⟩, build_eq_ok_iff.2 ⟨?_, hc, ?_⟩⟩
    · cases d
      simp_all [Machine.toDescription]
    · exact (Table.ofEntries_eq_ok_iff.1 ht).2

/-- A description with rules for entries, in whatever order, builds the machine with these rules. -/
theorem build_of_rules (rules : List (Key × Transition)) (hr : ∀ rule ∈ rules, rule.1.IsReadable)
    (hn : (rules.map (·.1)).Nodup)
    (ht : m.table = rules.foldl (fun table rule => table.insert rule.1 rule.2) .empty)
    (hp : (rules.map fun rule => (rule.1.format, rule.2.toInstruction)).Perm d.transitions)
    (hd : d = { m.toDescription with transitions := d.transitions }) : d.build = .ok m := by
  obtain ⟨hc, hh⟩ := Table.consistent_and_holds (Table.ofEntries_rules hr hn)
  rw [← ht] at hh
  exact build_eq_ok_iff.2 ⟨hd, hc.perm hp, hh.perm hp⟩

/-- A description to try this on. The text of its keys has another order than its states. -/
def backAndForth : Description where
  name := none
  states := ["a", "a!"]
  alphabet := ["0"]
  blank := "_"
  transitions := [("a:0", ⟨"a!", "0", .right⟩), ("a!:_", ⟨"a", "_", .left⟩), ("a:_", ⟨"h", "0", .stay⟩)]
  start := "a"
  halt := "h"

end Description

/-- The machine that it builds. -/
def Machine.backAndForth : Machine where
  name := none
  states := ["a", "a!"]
  alphabet := ['0']
  blank := '_'
  table := Table.empty
    |>.insert ⟨"a", '0'⟩ ⟨"a!", '0', .right⟩
    |>.insert ⟨"a", '_'⟩ ⟨"h", '0', .stay⟩
    |>.insert ⟨"a!", '_'⟩ ⟨"a", '_', .left⟩
  start := "a"
  halt := "h"

theorem Description.build_backAndForth : backAndForth.build = .ok .backAndForth := by
  refine build_of_rules [
    (⟨"a", '0'⟩, ⟨"a!", '0', .right⟩),
    (⟨"a", '_'⟩, ⟨"h", '0', .stay⟩),
    (⟨"a!", '_'⟩, ⟨"a", '_', .left⟩)] (by decide) (by decide) rfl ?_ rfl
  exact (List.Perm.swap _ _ _).cons _

end TapeMachine
