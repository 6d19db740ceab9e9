import Mathlib
import TapeMachine.Proofs.Passage
import TapeMachine.Proofs.Tape.Rendering
import TapeMachine.Validation
/-!
# Machines that sweep over their text

Three of the built-in machines have a single state to work in: they go to the right and put one symbol
for each that they find, and at the first blank they write a last one and halt (`Machine.Sweeps`).
Such a machine halts on every text that it knows, after one step for each symbol before the first blank
and one for the blank: `Sweeps.haltsWithin`. What it makes of a text without blanks is `Swept`.
-/

namespace TapeMachine.Machine

variable {m : Machine} {f : Symbol → Symbol} {last : Symbol} {text passed rest : List Symbol}

/-! ## Texts up to their first blank -/

/-- The text goes on with `rest` at its first blank. Before it stand symbols of the alphabet. -/
structure Cuts (m : Machine) (text passed rest : List Symbol) : Prop where
  text : text = passed ++ rest
  passed : ∀ s ∈ passed, s ∈ m.alphabet ∧ s ≠ m.blank
  /-- Beyond the end of the text there is a blank, too. -/
  rest : rest.headD m.blank = m.blank

theorem exists_cuts (ht : ∀ s ∈ text, s ∈ m.knownSymbols) : ∃ passed rest, m.Cuts text passed rest := by
  refine ⟨text.takeWhile (· ≠ m.blank), text.dropWhile (· ≠ m.blank), ?_, fun s hs => ?_, ?_⟩
  · exact List.takeWhile_append_dropWhile.symm
  · have hne : s ≠ m.blank := by simpa using List.mem_takeWhile_imp hs
    have hknown := ht s ((List.takeWhile_prefix _).subset hs)
    simp only [knownSymbols, List.mem_append, List.mem_singleton, hne, or_false] at hknown
    exact ⟨hknown, hne⟩
  · have hhead := List.head?_dropWhile_not (· ≠ m.blank) text
    rw [List.headD_eq_head?_getD]
    cases hd : (text.dropWhile (· ≠ m.blank)).head? with
    | none => rfl
    | some s =>
      rw [hd] at hhead
      simpa using hhead

theorem Cuts.length_le (h : m.Cuts text passed rest) : passed.length ≤ text.length := by
  rw [h.text, List.length_append]
  exact Nat.le_add_right _ _

/-! ## Sweeps -/

/-- The machine makes `f s` of each symbol `s` up to the first blank, and `last` of that. -/
structure Sweeps (m : Machine) (f : Symbol → Symbol) (last : Symbol) : Prop where
  start_ne_halt : m.start ≠ m.halt
  move : ∀ s ∈ m.alphabet, s ≠ m.blank → m.transition? m.start s = some ⟨m.start, f s, .right⟩
  stop : m.transition? m.start m.blank = some ⟨m.halt, last, .stay⟩

theorem Sweeps.passes (h : m.Sweeps f last) (hcut : m.Cuts text passed rest)
    (hn : text.length < 2 ^ 63) :
    m.Passes (passed.length + 1) ⟨m.start, 0, [], text⟩
      ⟨m.halt, passed.length, (passed.map f).reverse, last :: rest.tail⟩ := by
  have hlength := hcut.length_le
  have hmove : ∀ s ∈ passed, m.transition? m.start s = some ⟨m.start, f s, .right⟩ :=
    fun s hs => h.move s (hcut.passed s hs).1 (hcut.passed s hs).2
  have hsweep := passes_sweep f h.start_ne_halt hmove 0 [] rest (by omega)
  rw [zero_add, List.append_nil, ← hcut.text] at hsweep
  have hstop : m.transition? m.start (rest.headD m.blank) = some ⟨m.halt, last, .stay⟩ := by
    rw [hcut.rest]
    exact h.stop
  exact hsweep.step (t := ⟨m.halt, last, .stay⟩) h.start_ne_halt hstop trivial

theorem Sweeps.haltsWithin (h : m.Sweeps f last) (ht : ∀ s ∈ text, s ∈ m.knownSymbols)
    (hn : text.length < 2 ^ 63) : m.HaltsWithin (text.length + 1) text := by
  obtain ⟨passed, rest, hcut⟩ := exists_cuts ht
  exact ⟨_, Nat.succ_le_succ hcut.length_le, _, rfl, h.passes hcut hn⟩

/-- What a run over a whole text comes to: one step more than there are symbols, and the text with
something else for each symbol and for the blank behind them. -/
structure Swept (m : Machine) (f : Symbol → Symbol) (last : Symbol) (input : String) (o : Outcome) :
    Prop where
  halt : o.halt = .halted
  steps : o.steps.toNat = input.length + 1
  blank : o.tape.blank = m.blank
  tape : o.tape.Holds 0 (input.toList.map f ++ [last])

theorem Sweeps.swept (h : m.Sweeps f last) {input : String}
    (ht : ∀ s ∈ input.toList, s ∈ m.alphabet ∧ s ≠ m.blank) (hn : input.length < 2 ^ 63)
    {budget : StepCount} (hb : input.length + 1 ≤ budget.toNat) :
    m.Swept f last input (m.run (m.tape input) budget) := by
  have hcut : m.Cuts input.toList input.toList [] := ⟨(List.append_nil _).symm, ht, rfl⟩
  rw [← String.length_toList] at hn hb
  have ho := (h.passes hcut hn).haltsAt rfl hb
  refine ⟨ho.halt, ho.steps.trans (by rw [String.length_toList]), ho.blank, ?_⟩
  simpa [Configuration.first, Configuration.text] using ho.tape

namespace Swept

variable {input : String} {o : Outcome}

theorem rendered (h : m.Swept f last input o) (hn : input.length < 2 ^ 63)
    (hf : ∀ s ∈ input.toList, f s ≠ m.blank) (hlast : last ≠ m.blank) :
    o.rendered = String.ofList (input.toList.map f ++ [last]) := by
  rw [← String.length_toList] at hn
  refine h.tape.render_of_forall_ne (by simp) ?_ fun c hc => ?_
  · rw [List.length_append, List.length_map, List.length_singleton]
    omega
  · rw [h.blank]
    rcases List.mem_append.1 hc with hc | hc
    · obtain ⟨s, hs, rfl⟩ := List.mem_map.1 hc
      exact hf s hs
    · exact List.mem_singleton.1 hc ▸ hlast

/-- The blank behind the text may be left as it is. -/
theorem holds (h : m.Swept f m.blank input o) : o.tape.Holds 0 (input.toList.map f) := by
  have htape := h.tape
  rwa [← h.blank, Tape.holds_append_blank] at htape

theorem rendered_of_blank (h : m.Swept f m.blank input o) (hn : input.length < 2 ^ 63)
    (hf : ∀ s ∈ input.toList, f s ≠ m.blank) : o.rendered = String.ofList (input.toList.map f) := by
  rw [← String.length_toList] at hn
  refine h.holds.render_of_forall_ne (by simp) ?_ fun c hc => ?_
  · rw [List.length_map]
    omega
  · obtain ⟨s, hs, rfl⟩ := List.mem_map.1 hc
    rw [h.blank]
    exact hf s hs

theorem isBlank (h : m.Swept (fun _ => m.blank) m.blank input o) : o.tape.isBlank := by
  have hnil : (input.toList.map fun _ => m.blank).rdropWhile (· = o.tape.blank) = [] := by
    rw [List.rdropWhile_eq_nil_iff, h.blank]
    simp
  exact (hnil ▸ h.holds.rdropWhile).isBlank

end Swept

end TapeMachine.Machine
