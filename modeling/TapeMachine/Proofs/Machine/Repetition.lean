import Mathlib
import TapeMachine.Proofs.Description.Document
import TapeMachine.Proofs.Machine.Build
/-!
# Repeated keys in a text

A text may have several transitions with one key, and nothing is dropped for it: the description
that is read has an entry for every member of the transitions, in the order of the text, and no
machine is built from it. `repetition_of_isSpelled` says this of every text in which two members of
the transitions have names that denote the same, however they are spelled and wherever they stand.
-/

namespace TapeMachine

open Json

/-! ## Members and entries -/

/-- The members are those of the transitions in a description. -/
def Json.Value.HasTransitions (members : List Value.Member) : Value → Prop
  | object ms => (some "transitions", object members) ∈ ms
  | array vs => vs[4]? = some (object members)
  | _ => False

/-- What the name of the member at an index denotes. -/
def Json.nameAt (members : List Value.Member) (i : Nat) : Option String := members[i]?.bind (·.1)

/-- The member at `j` has the name of the one at `i`. -/
structure Json.RepeatsName (members : List Value.Member) (i j : Nat) (name : String) : Prop where
  lt : i < j
  left : nameAt members i = some name
  right : nameAt members j = some name

/-- The member spells the entry. -/
def SpellsEntry (m : Value.Member) (entry : Entry) : Prop :=
  m.1 = some entry.1 ∧ m.2.instruction? = some entry.2

section Entries

variable {v : Value} {d : Description} {members : List Value.Member} {entries : List Entry}
  {i j : Nat} {name : String}

theorem entry?_eq_some_iff {m : Value.Member} {entry : Entry} :
    m.entry? Value.instruction? = some entry ↔ SpellsEntry m entry := by
  obtain ⟨_ | name, v⟩ := m
  · simp [Value.Member.entry?, SpellsEntry]
  · cases hv : v.instruction? <;>
      simp [Value.Member.entry?, SpellsEntry, hv, Prod.ext_iff, eq_comm]

theorem entries?_eq_some_iff :
    (Value.object members).entries? = some entries ↔ List.Forall₂ SpellsEntry members entries := by
  change members.mapM (Value.Member.entry? Value.instruction?) = some entries ↔ _
  induction members generalizing entries with
  | nil => cases entries <;> simp
  | cons m members ih =>
    rw [List.mapM_cons]
    cases entries with
    | nil => simp [Option.bind_eq_some_iff]
    | cons entry entries =>
      rw [List.forall₂_cons, ← ih, ← entry?_eq_some_iff]
      simp [Option.bind_eq_some_iff]

/-- The transitions of a description are spelled by their members. -/
theorem forall₂_spellsEntry (hd : v.Describes d) (ht : v.HasTransitions members) :
    List.Forall₂ SpellsEntry members d.transitions := by
  rw [← entries?_eq_some_iff]
  cases v with
  | object ms =>
    obtain ⟨w, hvalues, hw⟩ := hd.transitions
    have hmem : Value.object members ∈ valuesOf "transitions" ms :=
      List.mem_map.2 ⟨_, List.mem_filter.2 ⟨ht, by simp⟩, rfl⟩
    rw [hvalues, List.mem_singleton] at hmem
    rwa [hmem]
  | array vs =>
    unfold Value.Describes at hd
    split at hd
    · cases ‹Value.array vs = _›
    · rename_i heq
      cases heq
      obtain ⟨-, -, -, -, htransitions, -, -⟩ := hd
      cases ht
      exact htransitions
    · exact hd.elim
  | _ => cases hd

theorem nameAt_eq (h : List.Forall₂ SpellsEntry members entries) (i : Nat) :
    nameAt members i = (entries.map (·.1))[i]? := by
  induction h generalizing i with
  | nil => rfl
  | cons hm _ ih =>
    cases i with
    | zero => simp [nameAt, hm.1]
    | succ i => simpa [nameAt] using ih i

/-- Names repeat among the members if and only if keys do among the entries. -/
theorem nodup_iff_not_repeatsName (h : List.Forall₂ SpellsEntry members entries) :
    (entries.map (·.1)).Nodup ↔ ∀ i j name, ¬ RepeatsName members i j name := by
  rw [List.nodup_iff_getElem?_ne_getElem?]
  constructor
  · rintro hn i j name ⟨hlt, hi, hj⟩
    rw [nameAt_eq h] at hi hj
    obtain ⟨hj', -⟩ := List.getElem?_eq_some_iff.1 hj
    exact hn i j hlt hj' (hi.trans hj.symm)
  · intro hn i j hlt hj heq
    refine hn i j (entries.map (·.1))[j] ⟨hlt, ?_, ?_⟩
    · rw [nameAt_eq h, heq]
      exact List.getElem?_eq_getElem hj
    · rw [nameAt_eq h]
      exact List.getElem?_eq_getElem hj

/-- An entry that repeats a key after others that do not is the first member to repeat a name. -/
theorem exists_repeatsName {before after : List Entry} {entry : Entry}
    (h : List.Forall₂ SpellsEntry members (before ++ entry :: after))
    (hn : (before.map (·.1)).Nodup) (hmem : entry.1 ∈ before.map (·.1)) :
    ∃ first, RepeatsName members first before.length entry.1 ∧
      ∀ i j other, RepeatsName members i j other → before.length ≤ j := by
  obtain ⟨first, hfirst⟩ := List.mem_iff_getElem?.1 hmem
  obtain ⟨hlt, -⟩ := List.getElem?_eq_some_iff.1 hfirst
  have hat {k : Nat} (hk : k < before.length) : nameAt members k = (before.map (·.1))[k]? := by
    rw [nameAt_eq h, List.map_append]
    exact List.getElem?_append_left (by simpa using hk)
  rw [List.length_map] at hlt
  refine ⟨first, ⟨hlt, (hat hlt).trans hfirst, by simp [nameAt_eq h]⟩, ?_⟩
  rintro i j other ⟨hij, hi, hj⟩
  by_contra hj'
  have hj' : j < before.length := Nat.lt_of_not_le hj'
  rw [hat (hij.trans hj')] at hi
  rw [hat hj'] at hj
  exact List.nodup_iff_getElem?_ne_getElem?.1 hn i j hij (by simpa using hj') (hi.trans hj.symm)

end Entries

/-! ## Building in spite of a repetition -/

section Build

variable {d : Description}

/-- All that running needs can be read. -/
structure Description.IsReadable (d : Description) : Prop where
  blank : SpellsSymbol d.blank
  alphabet : ∀ text ∈ d.alphabet, SpellsSymbol text
  write : ∀ entry ∈ d.transitions, SpellsSymbol entry.2.write
  key : ∀ entry ∈ d.transitions, ∃ key : Key, key.IsReadable ∧ entry.1 = key.format

/-- What can be read is not built if a key repeats: the first entry that repeats one is at fault. -/
theorem build_of_not_nodup (h : d.IsReadable) (hn : ¬ (d.transitions.map (·.1)).Nodup) :
    ∃ before entry after key, d.transitions = before ++ entry :: after ∧
      (before.map (·.1)).Nodup ∧ entry.1 ∈ before.map (·.1) ∧ Key.parse entry.1 = .ok key ∧
      d.build = .error (.duplicateKey key) := by
  cases hbuild : d.build with
  | ok m => exact absurd (Description.exists_build_iff.1 ⟨m, hbuild⟩).distinct hn
  | error e =>
    have hfail := hbuild
    rw [Description.build, bind_eq_error_iff, Symbol.parse_eq_error_iff] at hfail
    rcases hfail with ⟨hb, -⟩ | ⟨blank, -, hfail⟩
    · exact absurd h.blank hb
    rcases bind_eq_error_iff.1 hfail with hfail | ⟨alphabet, -, hfail⟩
    · obtain ⟨before, text, after, -, ha, -, hfail⟩ := mapM_eq_error_iff.1 hfail
      obtain ⟨ht, -⟩ := Symbol.parse_eq_error_iff.1 hfail
      exact absurd (h.alphabet text (by simp [ha])) ht
    rcases bind_eq_error_iff.1 hfail with hfail | ⟨table, -, hfail⟩
    · obtain ⟨before, entry, after, table, hd, hbefore, hfail⟩ := foldlM_eq_error_iff.1 hfail
      obtain ⟨hc, hh⟩ := Table.ofEntries_eq_ok_iff.1 hbefore
      have hmem : entry ∈ d.transitions := by simp [hd]
      obtain ⟨key, hr, hkey⟩ := h.key entry hmem
      rcases Table.addEntry_eq_error_iff.1 hfail with ⟨fault, hf, -⟩ | ⟨key', -, hkey', hfail⟩
      · exact absurd hf.1 (Key.not_applies_of_isReadable hr _ ∘ (hkey ▸ ·))
      rcases hfail with ⟨hw, -⟩ | ⟨-, hl, rfl⟩
      · exact absurd (h.write entry hmem) hw
      cases Key.format_injective (hkey.symm.trans hkey')
      rw [ne_eq, hh.lookup_eq_none_iff hc, not_not, ← hkey] at hl
      exact ⟨before, entry, after, key, hd, hc.distinct, hl, Key.parse_eq_ok_iff.2 ⟨hr, hkey⟩, rfl⟩
    · exact absurd hfail pure_ne_error

end Build

/-! ## Texts with a repetition -/

namespace Machine

variable {text : String} {v : Value} {members : List Value.Member} {i j : Nat} {name : String}

/-- What becomes of a text that spells `v` if two members of its transitions have one name. -/
structure ReportsRepetition (text : String) (v : Value) (members : List Value.Member) (i j : Nat)
    (name : String) : Prop where
  entries : ∀ d, Description.ofJson text = .ok d → List.Forall₂ SpellsEntry members d.transitions
  both : ∀ d, Description.ofJson text = .ok d → ∃ a b,
    d.transitions[i]? = some (name, a) ∧ d.transitions[j]? = some (name, b)
  ofJson : ∀ m, Machine.ofJson text ≠ .ok m
  load : ∀ m, Machine.load text ≠ .ok m
  /-- The error names the first member that repeats a name. -/
  error : ∀ d, v.Describes d → d.IsReadable → ∃ first again name key,
    RepeatsName members first again name ∧
    (∀ i j other, RepeatsName members i j other → again ≤ j) ∧
    Key.parse name = .ok key ∧ Machine.ofJson text = .error (.duplicateKey key) ∧
    (text.utf8ByteSize ≤ sizeLimit → Machine.load text = .error (.duplicateKey key))

theorem ofJson_eq_build {d : Description} (h : Description.ofJson text = .ok d) :
    ofJson text = d.build := by
  rw [ofJson, Description.read, h]
  rfl

theorem exists_description_of_ofJson {m : Machine} (h : ofJson text = .ok m) :
    ∃ d, Description.ofJson text = .ok d ∧ d.build = .ok m := by
  obtain ⟨d, hd, hm⟩ := bind_eq_ok_iff.1 h
  refine ⟨d, ?_, hm⟩
  unfold Description.read at hd
  split at hd
  · cases hd
    assumption
  · cases hd

theorem getElem?_of_nameAt {entries : List Entry} (h : List.Forall₂ SpellsEntry members entries)
    (hi : nameAt members i = some name) : ∃ a, entries[i]? = some (name, a) := by
  rw [nameAt_eq h, List.getElem?_map, Option.map_eq_some_iff] at hi
  obtain ⟨⟨_, a⟩, ha, rfl⟩ := hi
  exact ⟨a, ha⟩

/-- Two members of the transitions with one name, wherever they stand and however the name is
spelled, are two entries of the description and keep the text from giving a machine. -/
theorem repetition_of_isSpelled (text : String) (v : Value) (members : List Value.Member)
    (i j : Nat) (name : String) (hv : v.IsSpelled text) (ht : v.HasTransitions members)
    (hr : RepeatsName members i j name) : ReportsRepetition text v members i j name := by
  have hentries : ∀ d, Description.ofJson text = .ok d →
      List.Forall₂ SpellsEntry members d.transitions := by
    intro d hd
    exact forall₂_spellsEntry ((Description.ofJson_eq_ok_iff hv).1 hd) ht
  have hno : ∀ m, ofJson text ≠ .ok m := by
    intro m hm
    obtain ⟨d, hd, hbuild⟩ := exists_description_of_ofJson hm
    have hdistinct := (Description.exists_build_iff.1 ⟨m, hbuild⟩).distinct
    exact (nodup_iff_not_repeatsName (hentries d hd)).1 hdistinct i j name hr
  refine ⟨hentries, ?_, hno, ?_, ?_⟩
  · intro d hd
    obtain ⟨a, ha⟩ := getElem?_of_nameAt (hentries d hd) hr.left
    obtain ⟨b, hb⟩ := getElem?_of_nameAt (hentries d hd) hr.right
    exact ⟨a, b, ha, hb⟩
  · intro m hm
    unfold load at hm
    split at hm
    · cases hm
    · exact hno m hm
  · intro d hdescribes hreadable
    have hd := (Description.ofJson_eq_ok_iff hv).2 hdescribes
    have hs := hentries d hd
    have hn : ¬ (d.transitions.map (·.1)).Nodup := by
      rw [nodup_iff_not_repeatsName hs]
      exact fun hnone => hnone i j name hr
    obtain ⟨before, entry, after, key, htrans, hnodup, hmem, hkey, hbuild⟩ :=
      build_of_not_nodup hreadable hn
    rw [htrans] at hs
    obtain ⟨first, hagain, hleast⟩ := exists_repeatsName hs hnodup hmem
    have herror : ofJson text = .error (.duplicateKey key) := by
      rw [ofJson_eq_build hd, hbuild]
    refine ⟨first, before.length, entry.1, key, hagain, hleast, hkey, herror, ?_⟩
    intro hsize
    rw [load, if_neg (Nat.not_lt_of_le hsize), herror]

/-- A text with one key twice, the second time with an escape. -/
def repeatedKey : String :=
  "\x7b\"states\":[],\"alphabet\":[],\"blank\":\" \",\"transitions\":" ++
    "\x7b\"a:1\":[\"a\",\"1\",\"R\"],\"\\u0061:1\":[\"b\",\"0\",\"L\"]\x7d,\"start\":\"a\",\"halt\":\"b\"\x7d"

/-- The members of its transitions. -/
def repeatedKeyMembers : List Value.Member := [
  (some "a:1", .array [.string (some "a"), .string (some "1"), .string (some "R")]),
  (some "a:1", .array [.string (some "b"), .string (some "0"), .string (some "L")])]

def repeatedKeyValue : Value := .object [
  (some "states", .array []), (some "alphabet", .array []), (some "blank", .string (some " ")),
  (some "transitions", .object repeatedKeyMembers), (some "start", .string (some "a")),
  (some "halt", .string (some "b"))]

/-- What it is read as. -/
def repeatedKeyDescription : Description where
  name := none
  states := []
  alphabet := []
  blank := " "
  transitions := [("a:1", ⟨"a", "1", .right⟩), ("a:1", ⟨"b", "0", .left⟩)]
  start := "a"
  halt := "b"

theorem chars_escapedKey (rest : List Char) :
    Chars (some "a:1".toList) ("\\u0061:1\"".toList ++ rest) rest := by
  have hplain : IsPlain ":1" := by decide
  exact Chars.unit ⟨(rfl : hexValue? '0' '0' '6' '1' = some 97)⟩ rfl rfl (.of_isPlain hplain rest)

theorem isSpelled_repeatedKey : repeatedKeyValue.IsSpelled repeatedKey := by
  have hplain (rest : List Char) : SpellsMember
      (some "a:1", .array [.string (some "a"), .string (some "1"), .string (some "R")])
      ("\"a:1\":[\"a\",\"1\",\"R\"]".toList ++ rest) rest := by
    refine .of_isPlain (by decide) (.refl _) (.refl _) (.array (.refl _) ?_)
    refine .first (.of_isPlain (by decide) (.refl _)) ?_
    refine .next (.refl _) (.of_isPlain (by decide) (.refl _)) ?_
    exact .next (.refl _) (.of_isPlain (by decide) (.refl _)) (.close (.refl _))
  have hescaped (rest : List Char) : SpellsMember
      (some "a:1", .array [.string (some "b"), .string (some "0"), .string (some "L")])
      ("\"\\u0061:1\":[\"b\",\"0\",\"L\"]".toList ++ rest) rest := by
    refine .of_chars (.refl _) (chars_escapedKey _) (.refl _) (.array (.refl _) ?_)
    refine .first (.of_isPlain (by decide) (.refl _)) ?_
    refine .next (.refl _) (.of_isPlain (by decide) (.refl _)) ?_
    exact .next (.refl _) (.of_isPlain (by decide) (.refl _)) (.close (.refl _))
  refine ⟨[], ?_, .refl _⟩
  unfold repeatedKey
  rw [String.toList_append]
  simp only [String.reduceToList]
  refine .object (.refl _) ?_
  refine .first (.of_isPlain (by decide) (.refl _) (.refl _)
    (.array (.refl _) (.close (.refl _)))) ?_
  refine .next (.refl _) (.of_isPlain (by decide) (.refl _) (.refl _)
    (.array (.refl _) (.close (.refl _)))) ?_
  refine .next (.refl _) (.of_isPlain (by decide) (.refl _) (.refl _)
    (.of_isPlain (by decide) (.refl _))) ?_
  refine .next (.refl _) (.of_isPlain (by decide) (.refl _) (.refl _) (.object (.refl _)
    (.first (hplain _) (.next (.refl _) (hescaped _) (.close (.refl _)))))) ?_
  refine .next (.refl _) (.of_isPlain (by decide) (.refl _) (.refl _)
    (.of_isPlain (by decide) (.refl _))) ?_
  exact .next (.refl _) (.of_isPlain (by decide) (.refl _) (.refl _)
    (.of_isPlain (by decide) (.refl _))) (.close (.refl _))

theorem describes_repeatedKeyValue : repeatedKeyValue.Describes repeatedKeyDescription :=
  show MembersDescribe _ _ from {
    named := by simp
    name := .inl ⟨rfl, rfl⟩
    states := ⟨_, rfl, rfl⟩
    alphabet := ⟨_, rfl, rfl⟩
    blank := ⟨_, rfl, rfl⟩
    transitions := ⟨_, rfl, rfl⟩
    start := ⟨_, rfl, rfl⟩
    halt := ⟨_, rfl, rfl⟩ }

theorem isReadable_repeatedKeyDescription : repeatedKeyDescription.IsReadable where
  blank := rfl
  alphabet := List.forall_mem_nil _
  write := by
    simp only [repeatedKeyDescription, List.forall_mem_cons]
    exact ⟨rfl, rfl, List.forall_mem_nil _⟩
  key := by
    have hkey : Key.IsReadable ⟨"a", '1'⟩ := by decide
    simp only [repeatedKeyDescription, List.forall_mem_cons]
    exact ⟨⟨_, hkey, rfl⟩, ⟨_, hkey, rfl⟩, List.forall_mem_nil _⟩

/-- The two spellings of the key are one name, and all the rest can be read. -/
theorem repetition_of_isSpelled_repeatedKey :
    repeatedKeyValue.IsSpelled repeatedKey ∧ repeatedKeyValue.HasTransitions repeatedKeyMembers ∧
      RepeatsName repeatedKeyMembers 0 1 "a:1" ∧ repeatedKeyValue.Describes repeatedKeyDescription ∧
      repeatedKeyDescription.IsReadable ∧
      ReportsRepetition repeatedKey repeatedKeyValue repeatedKeyMembers 0 1 "a:1" := by
  have hv := isSpelled_repeatedKey
  have ht : repeatedKeyValue.HasTransitions repeatedKeyMembers := by
    simp [repeatedKeyValue, Value.HasTransitions]
  have hr : RepeatsName repeatedKeyMembers 0 1 "a:1" := ⟨Nat.zero_lt_one, rfl, rfl⟩
  exact ⟨hv, ht, hr, describes_repeatedKeyValue, isReadable_repeatedKeyDescription,
    repetition_of_isSpelled _ _ _ _ _ _ hv ht hr⟩

end Machine

end TapeMachine
