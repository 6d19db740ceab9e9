import Mathlib
import TapeMachine.Library
import TapeMachine.Proofs.Machine.Build
/-!
# What is in the library

All five descriptions of the catalogue can be built, so that the library has five machines, under the
names and in the order of the catalogue: `builtins_eq`.
-/

namespace TapeMachine

/-! ## The machines that the library has under these names -/

namespace Machine

def unaryIncrement : Machine where
  name := some "unary-increment"
  states := ["add", "done"]
  alphabet := ['1', 'B']
  blank := 'B'
  table := Table.empty
    |>.insert ⟨"add", '1'⟩ ⟨"add", '1', .right⟩
    |>.insert ⟨"add", 'B'⟩ ⟨"done", '1', .stay⟩
  start := "add"
  halt := "done"

def binaryIncrement : Machine where
  name := some "binary-increment"
  states := ["right", "carry", "done"]
  alphabet := ['0', '1']
  blank := '_'
  table := Table.empty
    |>.insert ⟨"right", '0'⟩ ⟨"right", '0', .right⟩
    |>.insert ⟨"right", '1'⟩ ⟨"right", '1', .right⟩
    |>.insert ⟨"right", '_'⟩ ⟨"carry", '_', .left⟩
    |>.insert ⟨"carry", '1'⟩ ⟨"carry", '0', .left⟩
    |>.insert ⟨"carry", '0'⟩ ⟨"done", '1', .stay⟩
    |>.insert ⟨"carry", '_'⟩ ⟨"done", '1', .stay⟩
  start := "right"
  halt := "done"

def binaryInvert : Machine where
  name := some "binary-invert"
  states := ["flip", "done"]
  alphabet := ['0', '1']
  blank := '_'
  table := Table.empty
    |>.insert ⟨"flip", '0'⟩ ⟨"flip", '1', .right⟩
    |>.insert ⟨"flip", '1'⟩ ⟨"flip", '0', .right⟩
    |>.insert ⟨"flip", '_'⟩ ⟨"done", '_', .stay⟩
  start := "flip"
  halt := "done"

def busyBeaver2 : Machine where
  name := some "busy-beaver-2"
  states := ["A", "B", "H"]
  alphabet := ['0', '1']
  blank := '0'
  table := Table.empty
    |>.insert ⟨"A", '0'⟩ ⟨"B", '1', .right⟩
    |>.insert ⟨"A", '1'⟩ ⟨"B", '1', .left⟩
    |>.insert ⟨"B", '0'⟩ ⟨"A", '1', .left⟩
    |>.insert ⟨"B", '1'⟩ ⟨"H", '1', .right⟩
  start := "A"
  halt := "H"

def erase : Machine where
  name := some "erase"
  states := ["erase", "done"]
  alphabet := ['0', '1']
  blank := '_'
  table := Table.empty
    |>.insert ⟨"erase", '0'⟩ ⟨"erase", '_', .right⟩
    |>.insert ⟨"erase", '1'⟩ ⟨"erase", '_', .right⟩
    |>.insert ⟨"erase", '_'⟩ ⟨"done", '_', .stay⟩
  start := "erase"
  halt := "done"

end Machine

/-! ## The catalogue -/

namespace Library

theorem build_unaryIncrement : unaryIncrement.build = .ok .unaryIncrement :=
  Description.build_of_rules [
    (⟨"add", '1'⟩, ⟨"add", '1', .right⟩),
    (⟨"add", 'B'⟩, ⟨"done", '1', .stay⟩)] (by decide) (by decide) rfl (.refl _) rfl

theorem build_binaryIncrement : binaryIncrement.build = .ok .binaryIncrement :=
  Description.build_of_rules [
    (⟨"right", '0'⟩, ⟨"right", '0', .right⟩),
    (⟨"right", '1'⟩, ⟨"right", '1', .right⟩),
    (⟨"right", '_'⟩, ⟨"carry", '_', .left⟩),
    (⟨"carry", '1'⟩, ⟨"carry", '0', .left⟩),
    (⟨"carry", '0'⟩, ⟨"done", '1', .stay⟩),
    (⟨"carry", '_'⟩, ⟨"done", '1', .stay⟩)] (by decide) (by decide) rfl (.refl _) rfl

theorem build_binaryInvert : binaryInvert.build = .ok .binaryInvert :=
  Description.build_of_rules [
    (⟨"flip", '0'⟩, ⟨"flip", '1', .right⟩),
    (⟨"flip", '1'⟩, ⟨"flip", '0', .right⟩),
    (⟨"flip", '_'⟩, ⟨"done", '_', .stay⟩)] (by decide) (by decide) rfl (.refl _) rfl

theorem build_busyBeaver2 : busyBeaver2.build = .ok .busyBeaver2 :=
  Description.build_of_rules [
    (⟨"A", '0'⟩, ⟨"B", '1', .right⟩),
    (⟨"A", '1'⟩, ⟨"B", '1', .left⟩),
    (⟨"B", '0'⟩, ⟨"A", '1', .left⟩),
    (⟨"B", '1'⟩, ⟨"H", '1', .right⟩)] (by decide) (by decide) rfl (.refl _) rfl

theorem build_erase : erase.build = .ok .erase :=
  Description.build_of_rules [
    (⟨"erase", '0'⟩, ⟨"erase", '_', .right⟩),
    (⟨"erase", '1'⟩, ⟨"erase", '_', .right⟩),
    (⟨"erase", '_'⟩, ⟨"done", '_', .stay⟩)] (by decide) (by decide) rfl (.refl _) rfl

/-- Where every description can be built, the library has the machines of all of them. -/
theorem builtins_of_builds {machines : List Machine}
    (h : catalogue.zipIdx.Forall₂ (fun entry machine => entry.1.1.build = .ok machine) machines) :
    builtins = catalogue.zipIdx.zipWith (fun entry machine =>
      ⟨machine.name.getD ("machine-" ++ toString entry.2), machine, entry.1.2⟩) machines := by
  unfold builtins
  generalize catalogue.zipIdx = entries at h ⊢
  induction h with
  | nil => rfl
  | @cons entry machine _ _ hbuild _ ih =>
    obtain ⟨⟨description, sample⟩, index⟩ := entry
    have hbuild : description.build = .ok machine := hbuild
    simp only [List.filterMap_cons, hbuild, ih, List.zipWith_cons_cons]

/-- These are all machines that the library has. -/
theorem builtins_eq : builtins = [
    ⟨"unary-increment", .unaryIncrement, "111"⟩, ⟨"binary-increment", .binaryIncrement, "1011"⟩,
    ⟨"binary-invert", .binaryInvert, "1010"⟩, ⟨"busy-beaver-2", .busyBeaver2, ""⟩,
    ⟨"erase", .erase, "1001"⟩] :=
  builtins_of_builds <| .cons build_unaryIncrement <| .cons build_binaryIncrement <|
    .cons build_binaryInvert <| .cons build_busyBeaver2 <| .cons build_erase .nil

theorem find_unaryIncrement :
    find "unary-increment" = .ok ⟨"unary-increment", .unaryIncrement, "111"⟩ := by
  rw [find, builtins_eq]
  rfl

theorem find_binaryIncrement :
    find "binary-increment" = .ok ⟨"binary-increment", .binaryIncrement, "1011"⟩ := by
  rw [find, builtins_eq]
  rfl

theorem find_binaryInvert :
    find "binary-invert" = .ok ⟨"binary-invert", .binaryInvert, "1010"⟩ := by
  rw [find, builtins_eq]
  rfl

theorem find_erase : find "erase" = .ok ⟨"erase", .erase, "1001"⟩ := by
  rw [find, builtins_eq]
  rfl

end Library

end TapeMachine
