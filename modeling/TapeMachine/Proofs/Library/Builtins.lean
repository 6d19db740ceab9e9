import Mathlib
import TapeMachine.Proofs.Library.BinaryIncrement
import TapeMachine.Proofs.Library.Sweeping
import TapeMachine.Proofs.Validation.Verdict
/-!
# The built-in machines

Each of the five machines halts on every text that it knows, with blanks anywhere in it, within
`2 n + 6` steps for `n` symbols: `haltsWithin_of_mem_builtins`. Three of them sweep, the increment goes
back over the digits that it has passed, and the busy beaver does not get further than two cells away
from where it begins. `builtins_compute` says this of runs, and what the three that sweep make of a text
without blanks.
-/

namespace TapeMachine

open Binary

/-- The other digit. -/
def Binary.inverse (digit : Symbol) : Symbol := if digit = '0' then '1' else '0'

/-- So many ones. -/
def Binary.ones (n : Nat) : String := String.ofList (.replicate n '1')

namespace Machine

variable {text : List Symbol}

/-! ## The ones that sweep -/

theorem sweeps_unaryIncrement : unaryIncrement.Sweeps id '1' where
  start_ne_halt := by decide
  move s hs hne := by
    have hone : s = '1' ∨ s = unaryIncrement.blank := by simpa [unaryIncrement] using hs
    rcases hone with rfl | hblank
    · simp [transition?, unaryIncrement, Table.lookup_insert]
    · exact absurd hblank hne
  stop := by simp [transition?, unaryIncrement, Table.lookup_insert]

theorem sweeps_binaryInvert : binaryInvert.Sweeps inverse '_' where
  start_ne_halt := by decide
  move s hs _ := by
    have hdigit : s = '0' ∨ s = '1' := by simpa [binaryInvert] using hs
    rcases hdigit with rfl | rfl <;> simp [transition?, binaryInvert, Table.lookup_insert, inverse]
  stop := by simp [transition?, binaryInvert, Table.lookup_insert]

theorem sweeps_erase : erase.Sweeps (fun _ => '_') '_' where
  start_ne_halt := by decide
  move s hs _ := by
    have hdigit : s = '0' ∨ s = '1' := by simpa [erase] using hs
    rcases hdigit with rfl | rfl <;> simp [transition?, erase, Table.lookup_insert]
  stop := by simp [transition?, erase, Table.lookup_insert]

/-! ## The increment -/

theorem haltsWithin_binaryIncrement (ht : ∀ s ∈ text, s ∈ binaryIncrement.knownSymbols)
    (hn : text.length < 2 ^ 63) : binaryIncrement.HaltsWithin (2 * text.length + 2) text := by
  obtain ⟨passed, right, hcut⟩ := exists_cuts ht
  have hlength := hcut.length_le
  have hbinary : IsBinary passed := by
    intro c hc
    simpa [binaryIncrement] using (hcut.passed c hc).1
  obtain ⟨rest, hsplit⟩ := exists_splits hbinary.reverse
  have hpass := passes_digits_blank hbinary (by omega) hsplit right hcut.rest
  rw [← hcut.text] at hpass
  have hones : (passed.reverse.takeWhile (· = '1')).length ≤ passed.length :=
    (List.takeWhile_prefix _).length_le.trans List.length_reverse.le
  exact ⟨_, by omega, _, rfl, hpass⟩

/-! ## The busy beaver -/

theorem transition?_busyBeaver2 :
    busyBeaver2.transition? "A" '0' = some ⟨"B", '1', .right⟩ ∧
      busyBeaver2.transition? "A" '1' = some ⟨"B", '1', .left⟩ ∧
      busyBeaver2.transition? "B" '0' = some ⟨"A", '1', .left⟩ ∧
      busyBeaver2.transition? "B" '1' = some ⟨"H", '1', .right⟩ := by
  simp [transition?, busyBeaver2, Table.lookup_insert]

/-- Beginning at a one, it goes two cells to the left, writes ones there, and comes back. -/
theorem passes_busyBeaver2_one (right : List Symbol) :
    busyBeaver2.Passes 4 ⟨"A", 0, [], '1' :: right⟩ ⟨"H", 0, ['1', '1'], '1' :: right⟩ := by
  obtain ⟨hA0, hA1, hB0, hB1⟩ := transition?_busyBeaver2
  have hA : "A" ≠ busyBeaver2.halt := by decide
  have hB : "B" ≠ busyBeaver2.halt := by decide
  have h₁ : busyBeaver2.Passes 1 ⟨"A", 0, [], '1' :: right⟩ ⟨"B", -1, [], '0' :: '1' :: right⟩ :=
    passes_one (t := ⟨"B", '1', .left⟩) hA hA1 (show -2 ^ 63 < (0 : Int) by omega)
  have h₂ : busyBeaver2.Passes 2 ⟨"A", 0, [], '1' :: right⟩
      ⟨"A", -2, [], '0' :: '1' :: '1' :: right⟩ :=
    h₁.step (t := ⟨"A", '1', .left⟩) hB hB0 (show -2 ^ 63 < (-1 : Int) by omega)
  have h₃ : busyBeaver2.Passes 3 ⟨"A", 0, [], '1' :: right⟩
      ⟨"B", -1, ['1'], '1' :: '1' :: right⟩ :=
    h₂.step (t := ⟨"B", '1', .right⟩) hA hA0 (show (-2 : Int) + 1 < 2 ^ 63 by omega)
  exact h₃.step (t := ⟨"H", '1', .right⟩) hB hB1 (show (-1 : Int) + 1 < 2 ^ 63 by omega)

/-- Beginning at a zero, it has a one where it began and looks at the next cell. -/
theorem passes_busyBeaver2_zero {right : List Symbol} (h : right.headD '0' = '0') :
    busyBeaver2.Passes 1 ⟨"A", 0, [], right⟩ ⟨"B", 1, ['1'], right.tail⟩ := by
  obtain ⟨hA0, -, -, -⟩ := transition?_busyBeaver2
  have hA : "A" ≠ busyBeaver2.halt := by decide
  have hread : busyBeaver2.transition? "A" (right.headD '0') = some ⟨"B", '1', .right⟩ := by
    rw [h, hA0]
  exact passes_one (t := ⟨"B", '1', .right⟩) hA hread (show (0 : Int) + 1 < 2 ^ 63 by omega)

theorem headD_eq_zero_or_one (ht : IsBinary text) :
    text.headD '0' = '0' ∨ text.headD '0' = '1' := by
  cases text with
  | nil => exact .inl rfl
  | cons s text => exact ht s List.mem_cons_self

theorem haltsWithin_busyBeaver2 (ht : IsBinary text) : busyBeaver2.HaltsWithin 6 text := by
  obtain ⟨-, -, hB0, hB1⟩ := transition?_busyBeaver2
  have hB : "B" ≠ busyBeaver2.halt := by decide
  rcases headD_eq_zero_or_one ht with h0 | h1
  · have hzero := passes_busyBeaver2_zero h0
    rcases headD_eq_zero_or_one fun s hs => ht s (List.mem_of_mem_tail hs) with h0 | h1
    · -- two zeros: it comes back to the one that it has written
      have hread : busyBeaver2.transition? "B" (text.tail.headD '0') = some ⟨"A", '1', .left⟩ := by
        rw [h0, hB0]
      have hback : busyBeaver2.Passes 2 ⟨"A", 0, [], text⟩
          ⟨"A", 0, [], '1' :: '1' :: text.tail.tail⟩ :=
        hzero.step (t := ⟨"A", '1', .left⟩) hB hread (show -2 ^ 63 < (1 : Int) by omega)
      exact ⟨6, le_rfl, _, rfl, hback.trans (passes_busyBeaver2_one _)⟩
    · have hread : busyBeaver2.transition? "B" (text.tail.headD '0') = some ⟨"H", '1', .right⟩ := by
        rw [h1, hB1]
      have hstop := hzero.step (t := ⟨"H", '1', .right⟩) hB hread
        (show (1 : Int) + 1 < 2 ^ 63 by omega)
      exact ⟨2, by omega, _, rfl, hstop⟩
  · obtain ⟨right, rfl⟩ : ∃ right, text = '1' :: right := by
      cases text with
      | nil => cases h1
      | cons s right => exact ⟨right, by rw [← h1]; rfl⟩
    exact ⟨4, by omega, _, rfl, passes_busyBeaver2_one right⟩

/-! ## All of them -/

/-- Every machine of the library halts on every text that it knows. -/
theorem haltsWithin_of_mem_builtins {builtin : Builtin} (h : builtin ∈ Library.builtins)
    (ht : ∀ s ∈ text, s ∈ builtin.machine.knownSymbols) (hn : text.length < 2 ^ 63) :
    builtin.machine.HaltsWithin (2 * text.length + 6) text := by
  rw [Library.builtins_eq] at h
  simp only [List.mem_cons, List.not_mem_nil, or_false] at h
  rcases h with rfl | rfl | rfl | rfl | rfl
  · exact (sweeps_unaryIncrement.haltsWithin ht hn).mono (by omega)
  · exact (haltsWithin_binaryIncrement ht hn).mono (by omega)
  · exact (sweeps_binaryInvert.haltsWithin ht hn).mono (by omega)
  · have hbinary : IsBinary text := by
      intro s hs
      have := ht s hs
      simp only [busyBeaver2, knownSymbols, List.cons_append, List.nil_append, List.mem_cons,
        List.not_mem_nil, or_false] at this
      tauto
    exact (haltsWithin_busyBeaver2 hbinary).mono (by omega)
  · exact (sweeps_erase.haltsWithin ht hn).mono (by omega)

/-! ## Runs -/

/-- With the budget for it, a run over the text halts after one step for each symbol and one more, and
its outcome is as asked for. -/
def InOnePass (m : Machine) (input : String) (p : Outcome → Prop) : Prop :=
  ∀ budget : StepCount, input.length + 1 ≤ budget.toNat →
    (m.run (m.tape input) budget).halt = .halted ∧
      (m.run (m.tape input) budget).steps.toNat = input.length + 1 ∧ p (m.run (m.tape input) budget)

variable {m : Machine} {f : Symbol → Symbol} {last : Symbol} {input : String}

theorem Sweeps.inOnePass (h : m.Sweeps f last) (ht : ∀ s ∈ input.toList, s ∈ m.alphabet ∧ s ≠ m.blank)
    (hn : input.length < 2 ^ 63) {p : Outcome → Prop} (hp : ∀ o, m.Swept f last input o → p o) :
    m.InOnePass input p := by
  intro budget hb
  have ho := h.swept ht hn hb
  exact ⟨ho.halt, ho.steps, hp _ ho⟩

theorem inOnePass_unaryIncrement {n : Nat} (hn : n < 2 ^ 63) :
    unaryIncrement.InOnePass (ones n) fun o => o.rendered = ones (n + 1) := by
  have hones : ∀ s ∈ (ones n).toList, s = '1' := by
    intro s hs
    rw [ones, String.toList_ofList] at hs
    exact List.eq_of_mem_replicate hs
  have hlength : (ones n).length < 2 ^ 63 := by simpa [ones] using hn
  refine sweeps_unaryIncrement.inOnePass (fun s hs => ?_) hlength fun o ho => ?_
  · rw [hones s hs]
    decide
  · rw [ho.rendered hlength (fun s hs => by rw [hones s hs]; decide) (by decide)]
    simp [ones, List.replicate_succ']

theorem mem_alphabet_of_isBinary (h : IsBinary text) :
    ∀ s ∈ text, s ∈ ['0', '1'] ∧ s ≠ '_' := by
  intro s hs
  rcases h s hs with rfl | rfl <;> decide

theorem inOnePass_binaryInvert (ht : IsBinary input.toList) (hn : input.length < 2 ^ 63) :
    binaryInvert.InOnePass input fun o =>
      o.rendered = String.ofList (input.toList.map inverse) := by
  refine sweeps_binaryInvert.inOnePass (mem_alphabet_of_isBinary ht) hn fun o ho => ?_
  refine ho.rendered_of_blank hn fun s hs => ?_
  rcases ht s hs with rfl | rfl <;> decide

theorem inOnePass_erase (ht : IsBinary input.toList) (hn : input.length < 2 ^ 63) :
    erase.InOnePass input fun o => o.tape.isBlank :=
  sweeps_erase.inOnePass (mem_alphabet_of_isBinary ht) hn fun _ ho => ho.isBlank

/-- Every run of a machine of the library on a text that it knows halts if its budget allows `2 n + 6`
steps, and the three machines that sweep make of their texts what they are named for. There has to be a
position for each symbol and for the blank behind the last of them, as there is for every text that
fits into an address space of 64 bits; a budget of `2 n + 6` says as much. -/
theorem builtins_compute :
    (∀ builtin ∈ Library.builtins, ∀ (input : String) (budget : StepCount),
      builtin.machine.validateTape input = .ok () → 2 * input.length + 6 ≤ budget.toNat →
        (builtin.machine.run (builtin.machine.tape input) budget).halt = .halted) ∧
    (∃ builtin, Library.find "unary-increment" = .ok builtin ∧ ∀ n < 2 ^ 63,
      builtin.machine.InOnePass (ones n) fun o => o.rendered = ones (n + 1)) ∧
    (∃ builtin, Library.find "binary-invert" = .ok builtin ∧ ∀ input : String,
      IsBinary input.toList → input.length < 2 ^ 63 → builtin.machine.InOnePass input fun o =>
        o.rendered = String.ofList (input.toList.map inverse)) ∧
    (∃ builtin, Library.find "erase" = .ok builtin ∧ ∀ input : String,
      IsBinary input.toList → input.length < 2 ^ 63 → builtin.machine.InOnePass input fun o =>
        o.tape.isBlank) := by
  refine ⟨fun builtin hb input budget ht hbudget => ?_, ⟨_, Library.find_unaryIncrement, ?_⟩,
    ⟨_, Library.find_binaryInvert, ?_⟩, ⟨_, Library.find_erase, ?_⟩⟩
  · have hbound := budget.toNat_lt
    rw [← String.length_toList] at hbudget
    exact (haltsWithin_of_mem_builtins hb (validateTape_eq_ok_iff.1 ht) (by omega)).halt hbudget
  · exact fun n hn => inOnePass_unaryIncrement hn
  · exact fun input ht hn => inOnePass_binaryInvert ht hn
  · exact fun input ht hn => inOnePass_erase ht hn

/-- The busy beaver on "10", and the three that sweep on texts of three and of four symbols. -/
theorem builtins_compute_samples :
    (busyBeaver2.validateTape "10" = .ok () ∧ 2 * "10".length + 6 ≤ (10 : StepCount).toNat ∧
      (busyBeaver2.run (busyBeaver2.tape "10") 10).halt = .halted) ∧
    (3 < 2 ^ 63 ∧ unaryIncrement.InOnePass (ones 3) fun o => o.rendered = ones (3 + 1)) ∧
    (IsBinary "1010".toList ∧ "1010".length < 2 ^ 63 ∧ binaryInvert.InOnePass "1010" fun o =>
      o.rendered = String.ofList ("1010".toList.map inverse)) ∧
    (IsBinary "1001".toList ∧ "1001".length < 2 ^ 63 ∧ erase.InOnePass "1001" fun o =>
      o.tape.isBlank) := by
  obtain ⟨hall, ⟨_, hfindUnary, hunary⟩, ⟨_, hfindInvert, hinvert⟩, _, hfindErase, herase⟩ :=
    builtins_compute
  rw [Library.find_unaryIncrement] at hfindUnary
  rw [Library.find_binaryInvert] at hfindInvert
  rw [Library.find_erase] at hfindErase
  cases hfindUnary
  cases hfindInvert
  cases hfindErase
  have hmem : ⟨"busy-beaver-2", busyBeaver2, ""⟩ ∈ Library.builtins := by
    rw [Library.builtins_eq]
    simp
  have htext : busyBeaver2.validateTape "10" = .ok () :=
    validateTape_eq_ok_iff.2 (by simp [busyBeaver2, knownSymbols])
  have hbudget : 2 * "10".length + 6 ≤ (10 : StepCount).toNat := by decide
  have hinput : IsBinary "1010".toList ∧ "1010".length < 2 ^ 63 :=
    ⟨by simp [IsBinary], by decide⟩
  have hcleared : IsBinary "1001".toList ∧ "1001".length < 2 ^ 63 :=
    ⟨by simp [IsBinary], by decide⟩
  exact ⟨⟨htext, hbudget, hall _ hmem "10" 10 htext hbudget⟩, ⟨by omega, hunary 3 (by omega)⟩,
    ⟨hinput.1, hinput.2, hinvert "1010" hinput.1 hinput.2⟩,
    ⟨hcleared.1, hcleared.2, herase "1001" hcleared.1 hcleared.2⟩⟩

end Machine

end TapeMachine
