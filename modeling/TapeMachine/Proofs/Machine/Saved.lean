import Mathlib
import TapeMachine.Proofs.Description.RoundTrip
import TapeMachine.Proofs.Machine.Describe
/-!
# Saved machines

The text of a machine is a canonical form of it: `eq_iff_toJson_eq_of_build`, machines that were
built are equal exactly if their texts are. The text does not depend on the order in which the table
is gone through, it gives the machine back, and it can be loaded unless it is too large (`Saves`).
-/

namespace TapeMachine

/-! ## Texts of descriptions -/

theorem Description.ofJson_toJson (d : Description) : ofJson d.toJson = .ok d :=
  (reads_description (.indented 0) d).parse

theorem Description.toJson_injective : Function.Injective toJson := by
  intro d d' h
  have hd := ofJson_toJson d
  rw [h, ofJson_toJson d'] at hd
  exact (Except.ok.inj hd).symm

namespace Machine

variable {d : Description} {m : Machine} {text : String} {entries : List Entry}

/-- The text of a description is built into what the description is. -/
theorem ofJson_toJson (d : Description) : ofJson d.toJson = d.build := by
  rw [ofJson, Description.read, d.ofJson_toJson]
  rfl

theorem load_of_le (h : text.utf8ByteSize ≤ sizeLimit) : load text = ofJson text :=
  if_neg (Nat.not_lt_of_le h)

theorem load_of_lt (h : sizeLimit < text.utf8ByteSize) :
    load text = .error (.file (.tooLarge text.utf8ByteSize sizeLimit)) :=
  if_pos h

/-! ## Texts of machines -/

theorem perm_entries_of_build (h : d.build = .ok m) : m.entries.Perm d.transitions := by
  obtain ⟨-, hc, hh⟩ := Description.build_eq_ok_iff.1 h
  exact perm_entries hc hh

/-- What a machine is described as builds it again. -/
theorem build_toDescription (h : d.build = .ok m) : m.toDescription.build = .ok m := by
  have hd := (Description.build_eq_ok_iff.1 h).1
  have hperm := (perm_sortedByKey m.entries).trans (perm_entries_of_build h)
  have hbuild := build_perm h hperm
  rw [hd] at hbuild
  exact hbuild

/-- The text of the machine if its table is gone through in the order of `listing`. -/
def textOf (m : Machine) (listing : List Entry) : String :=
  Description.toJson { m.toDescription with transitions := sortedByKey listing }

theorem textOf_perm (h : d.build = .ok m) (hp : entries.Perm m.entries) :
    m.textOf entries = m.toDescription.toJson := by
  obtain ⟨-, hc, -⟩ := Description.build_eq_ok_iff.1 h
  have hlisting := hp.trans (perm_entries_of_build h)
  have hdistinct : (entries.map (·.1)).Nodup := (hlisting.map _).nodup_iff.2 hc.distinct
  rw [textOf, sortedByKey_congr hp hdistinct]
  rfl

/-- The machine has one text, which gives it back, also through the loader if the text is not too
large. -/
structure Saves (m : Machine) : Prop where
  textOf : ∀ listing, listing.Perm m.entries → m.textOf listing = m.toDescription.toJson
  ofJson : Machine.ofJson m.toDescription.toJson = .ok m
  load : m.toDescription.toJson.utf8ByteSize ≤ 65536 →
    Machine.load m.toDescription.toJson = .ok m
  tooLarge : 65536 < m.toDescription.toJson.utf8ByteSize →
    Machine.load m.toDescription.toJson =
      .error (.file (.tooLarge m.toDescription.toJson.utf8ByteSize 65536))

theorem saves (h : d.build = .ok m) : Saves m := by
  have hread : Machine.ofJson m.toDescription.toJson = .ok m := by
    rw [ofJson_toJson, build_toDescription h]
  refine ⟨fun _ => textOf_perm h, hread, ?_, ?_⟩
  · intro hsize
    rw [load_of_le hsize, hread]
  · intro hsize
    exact load_of_lt hsize

/-- Machines that were built, from whatever descriptions, are equal if and only if their texts are,
and each of them survives its text. -/
theorem eq_iff_toJson_eq_of_build (d d' : Description) (m m' : Machine) (h : d.build = .ok m)
    (h' : d'.build = .ok m') :
    (m = m' ↔ m.toDescription.toJson = m'.toDescription.toJson) ∧ Saves m ∧ Saves m' := by
  refine ⟨⟨?_, ?_⟩, saves h, saves h'⟩
  · rintro rfl
    rfl
  · intro htext
    have hm := (saves h).ofJson
    rw [htext, (saves h').ofJson] at hm
    exact (Except.ok.inj hm).symm

/-- Two descriptions that differ in the order of their entries. -/
theorem eq_iff_toJson_eq_of_build_backAndForth :
    Description.backAndForth.build = .ok .backAndForth ∧
      Description.build { Description.backAndForth with
        transitions := Description.backAndForth.transitions.reverse } = .ok .backAndForth ∧
      (Machine.backAndForth = .backAndForth ↔
        Machine.backAndForth.toDescription.toJson = Machine.backAndForth.toDescription.toJson) ∧
      Saves .backAndForth ∧ Saves .backAndForth :=
  have h := Description.build_backAndForth
  have h' := build_perm h (List.reverse_perm Description.backAndForth.transitions)
  ⟨h, h', eq_iff_toJson_eq_of_build _ _ _ _ h h'⟩

end Machine

end TapeMachine
