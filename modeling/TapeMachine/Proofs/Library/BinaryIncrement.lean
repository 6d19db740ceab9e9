import Mathlib
import TapeMachine.Proofs.Library.Catalogue
import TapeMachine.Proofs.Passage
/-!
# The built-in increment

`binary-increment` adds one to a binary number of any length, and takes `n + k + 2` steps for `n`
digits of which the last `k` are ones: `increments`. It walks over the digits to the right, turns
at the blank behind them, and on the way back makes zeros of the ones and a one of the first digit
that is none, or of the blank before all of them.
-/

namespace TapeMachine

/-! ## Binary numbers -/

namespace Binary

/-- Nothing but zeros and ones. -/
def IsBinary (text : List Symbol) : Prop := ∀ c ∈ text, c = '0' ∨ c = '1'

def bit (digit : Symbol) : Nat := if digit = '1' then 1 else 0

/-- The number that digits stand for, the last of them first. -/
def number (digits : List Symbol) : Nat := Nat.ofDigits 2 (digits.map bit)

/-- The number that a text stands for. -/
def value (text : String) : Nat := number text.toList.reverse

/-- How many ones the text ends with. -/
def trailingOnes (text : String) : Nat := (text.toList.reverse.takeWhile (· = '1')).length

/-- Digits, the last of them first: ones, and beyond them nothing or a zero. -/
structure Splits (digits : List Symbol) (ones : Nat) (rest : List Symbol) : Prop where
  digits : digits = .replicate ones '1' ++ rest
  rest : rest = [] ∨ ∃ high, rest = '0' :: high

/-- The digits when one is added. -/
def carried (ones : Nat) (rest : List Symbol) : List Symbol :=
  .replicate ones '0' ++ '1' :: rest.tail

variable {digits rest : List Symbol} {ones : Nat}

@[simp] theorem number_cons (digit : Symbol) (digits : List Symbol) :
    number (digit :: digits) = bit digit + 2 * number digits := by
  simp [number, Nat.ofDigits_cons]

theorem IsBinary.reverse (h : IsBinary digits) : IsBinary digits.reverse :=
  fun c hc => h c (List.mem_reverse.1 hc)

theorem exists_splits (h : IsBinary digits) :
    ∃ rest, Splits digits (digits.takeWhile (· = '1')).length rest := by
  induction digits with
  | nil => exact ⟨[], rfl, .inl rfl⟩
  | cons c digits ih =>
    obtain ⟨hc, hdigits⟩ := List.forall_mem_cons.1 h
    rcases hc with rfl | rfl
    · exact ⟨'0' :: digits, rfl, .inr ⟨digits, rfl⟩⟩
    · obtain ⟨rest, hd, hr⟩ := ih hdigits
      refine ⟨rest, ?_, hr⟩
      simpa [List.replicate_succ] using hd

namespace Splits

variable (h : Splits digits ones rest)
include h

theorem number_carried : number (carried ones rest) = number digits + 1 := by
  obtain ⟨rfl, hrest⟩ := h
  unfold carried
  induction ones with
  | zero =>
    rcases hrest with rfl | ⟨high, rfl⟩
    · rfl
    · simp [bit]
      omega
  | succ ones ih =>
    simp only [List.replicate_succ, List.cons_append, number_cons, ih]
    simp [bit]
    omega

/-- Eleven and twelve, the last digit first. -/
example : number ['1', '1', '0', '1'] = 11 ∧ number (carried 2 ['0', '1']) = 12 := by decide

theorem length_carried :
    (carried ones rest).length = if '0' ∈ digits then digits.length else digits.length + 1 := by
  obtain ⟨rfl, rfl | ⟨high, rfl⟩⟩ := h <;> simp [carried]

theorem isBinary_carried (hd : IsBinary digits) : IsBinary (carried ones rest) := by
  intro c hc
  obtain ⟨rfl, -⟩ := h
  unfold carried at hc
  rcases List.mem_append.1 hc with hc | hc
  · exact .inl (List.eq_of_mem_replicate hc)
  · rcases List.mem_cons.1 hc with rfl | hc
    · exact .inr rfl
    · exact hd c (List.mem_append_right _ (List.mem_of_mem_tail hc))

end Splits

end Binary

open Binary

/-! ## The machine -/

namespace Machine

variable {rest text : List Symbol} {ones : Nat}

/-- The way to the right changes nothing. -/
theorem passes_digits (ht : IsBinary text) (hn : text.length < 2 ^ 63) (right : List Symbol) :
    binaryIncrement.Passes text.length ⟨"right", 0, [], text ++ right⟩
      ⟨"right", text.length, text.reverse, right⟩ := by
  have hmove : ∀ c ∈ text, binaryIncrement.transition? "right" c = some ⟨"right", id c, .right⟩ := by
    intro c hc
    rcases ht c hc with rfl | rfl <;> simp [transition?, binaryIncrement, Table.lookup_insert]
  have h := passes_sweep id (by decide) hmove 0 [] right (by omega)
  simpa using h

/-- The way back: the ones become zeros, and what is beyond them a one. -/
theorem passes_carry (hrest : rest = [] ∨ ∃ high, rest = '0' :: high) (head : Int)
    (right : List Symbol) (hl : -2 ^ 63 ≤ head - ones) :
    binaryIncrement.Passes (ones + 1)
      ⟨"carry", head, (.replicate ones '1' ++ rest).tail,
        (.replicate ones '1' ++ rest).headD '_' :: right⟩
      ⟨"done", head - ones, rest.tail, '1' :: (.replicate ones '0' ++ right)⟩ := by
  have hgo : "carry" ≠ binaryIncrement.halt := by decide
  induction ones generalizing head right with
  | zero =>
    have hblank : binaryIncrement.transition? "carry" '_' = some ⟨"done", '1', .stay⟩ := by
      simp [transition?, binaryIncrement, Table.lookup_insert]
    have hzero : binaryIncrement.transition? "carry" '0' = some ⟨"done", '1', .stay⟩ := by
      simp [transition?, binaryIncrement, Table.lookup_insert]
    have hdone : binaryIncrement.transition? "carry" (rest.headD '_') =
        some ⟨"done", '1', .stay⟩ := by
      rcases hrest with rfl | ⟨high, rfl⟩
      · exact hblank
      · exact hzero
    have h : binaryIncrement.Passes 1 ⟨"carry", head, rest.tail, rest.headD '_' :: right⟩
        ⟨"done", head, rest.tail, '1' :: right⟩ :=
      passes_one (t := ⟨"done", '1', .stay⟩) hgo hdone trivial
    simpa using h
  | succ ones ih =>
    have hone : binaryIncrement.transition? "carry" '1' = some ⟨"carry", '0', .left⟩ := by
      simp [transition?, binaryIncrement, Table.lookup_insert]
    have h : binaryIncrement.Passes 1 ⟨"carry", head, .replicate ones '1' ++ rest, '1' :: right⟩
        ⟨"carry", head - 1, (.replicate ones '1' ++ rest).tail,
          (.replicate ones '1' ++ rest).headD '_' :: '0' :: right⟩ :=
      passes_one (t := ⟨"carry", '0', .left⟩) hgo hone (show -2 ^ 63 < head by omega)
    have hall := h.trans (ih (head - 1) ('0' :: right) (by omega))
    have hhead : head - 1 - ones = head - (ones + 1) := by omega
    have hzeros : List.replicate ones '0' ++ '0' :: right = .replicate (ones + 1) '0' ++ right := by
      simp [List.replicate_succ']
    rw [hhead, hzeros, add_comm 1] at hall
    exact hall

/-- All of the way, from the first digit to the halt. What stands beyond the blank that the digits
end with is not looked at. -/
theorem passes_digits_blank (ht : IsBinary text) (hn : text.length < 2 ^ 63)
    (h : Splits text.reverse ones rest) (right : List Symbol) (hright : right.headD '_' = '_') :
    binaryIncrement.Passes (text.length + ones + 2) ⟨"right", 0, [], text ++ right⟩
      ⟨"done", text.length - 1 - ones, rest.tail,
        '1' :: (.replicate ones '0' ++ '_' :: right.tail)⟩ := by
  have hturn : binaryIncrement.transition? "right" (right.headD '_') =
      some ⟨"carry", '_', .left⟩ := by
    rw [hright]
    simp [transition?, binaryIncrement, Table.lookup_insert]
  have hgo : "right" ≠ binaryIncrement.halt := by decide
  have hback := (passes_digits ht hn right).step (t := ⟨"carry", '_', .left⟩) hgo hturn
    (show -2 ^ 63 < (text.length : Int) by omega)
  have hones : ones ≤ text.length := by
    have hlength := congrArg List.length h.digits
    rw [List.length_reverse, List.length_append, List.length_replicate] at hlength
    omega
  have hl : -2 ^ 63 ≤ (text.length : Int) - 1 - ones := by omega
  have hcarry := passes_carry h.rest (text.length - 1) ('_' :: right.tail) hl
  rw [← h.digits] at hcarry
  have hall := hback.trans hcarry
  have hsteps : text.length + 1 + (ones + 1) = text.length + ones + 2 := by omega
  rw [hsteps] at hall
  exact hall

theorem passes_binaryIncrement (ht : IsBinary text) (hn : text.length < 2 ^ 63)
    (h : Splits text.reverse ones rest) :
    binaryIncrement.Passes (text.length + ones + 2) ⟨"right", 0, [], text⟩
      ⟨"done", text.length - 1 - ones, rest.tail, '1' :: (.replicate ones '0' ++ ['_'])⟩ := by
  simpa using passes_digits_blank ht hn h [] rfl

end Machine

/-! ## Runs -/

/-- What the increment comes to on a text when it has the budget for it. -/
structure Incremented (text : String) (o : Outcome) : Prop where
  halt : o.halt = .halted
  state : o.state = "done"
  steps : o.steps.toNat = text.length + trailingOnes text + 2
  binary : IsBinary o.rendered.toList
  value : value o.rendered = value text + 1
  length : o.rendered.length = if '0' ∈ text.toList then text.length else text.length + 1

/-- The digits with one added are all that is on the tape. -/
theorem rendered_of_haltsAt {text : List Symbol} {ones n : Nat} {rest : List Symbol} {o : Outcome}
    (ht : IsBinary text) (hn : text.length < 2 ^ 63)
    (h : Splits text.reverse ones rest)
    (ho : Machine.binaryIncrement.HaltsAt n
      ⟨"done", text.length - 1 - ones, rest.tail, '1' :: (.replicate ones '0' ++ ['_'])⟩ o) :
    o.rendered = String.ofList (carried ones rest).reverse := by
  have hblank : o.tape.blank = '_' := ho.blank
  have htext : rest.tail.reverse ++ '1' :: (.replicate ones '0' ++ ['_']) =
      (carried ones rest).reverse ++ [o.tape.blank] := by
    simp [carried, hblank]
  have htape := ho.tape
  unfold Configuration.text Configuration.first at htape
  rw [htext, Tape.holds_append_blank] at htape
  have hset : ∀ c ∈ (carried ones rest).reverse, c ≠ o.tape.blank := by
    intro c hc
    rw [hblank]
    rcases h.isBinary_carried ht.reverse c (List.mem_reverse.1 hc) with rfl | rfl <;> decide
  have hlength := congrArg List.length h.digits
  have hcarried : (carried ones rest).length = ones + rest.tail.length + 1 := by
    simp [carried, add_assoc]
  rw [List.length_reverse, List.length_append, List.length_replicate] at hlength
  have htail := rest.length_tail
  refine htape.render_of_forall_ne ?_ ?_ hset
  · show -2 ^ 63 ≤ (text.length : Int) - 1 - ones - rest.tail.length
    omega
  · rw [List.length_reverse, hcarried]
    show (text.length : Int) - 1 - ones - rest.tail.length + _ ≤ 2 ^ 63
    omega

/-- The machine that the library has under the name of `binary-increment` adds one to every binary
number if its budget allows `n + k + 2` steps, and uses up every smaller budget. There has to be a
position for each digit and for the blank behind the last of them, as there is for every text that
fits into an address space of 64 bits. -/
theorem increments (text : String) (ht : IsBinary text.toList) (hn : text.length < 2 ^ 63)
    (budget : StepCount) :
    ∃ builtin, Library.find "binary-increment" = .ok builtin ∧
      (text.length + trailingOnes text + 2 ≤ budget.toNat →
        Incremented text (builtin.machine.run (builtin.machine.tape text) budget)) ∧
      (budget.toNat < text.length + trailingOnes text + 2 →
        (builtin.machine.run (builtin.machine.tape text) budget).halt = .budgetExceeded ∧
          (builtin.machine.run (builtin.machine.tape text) budget).steps = budget) := by
  have hdigits := ht.reverse
  obtain ⟨rest, h⟩ : ∃ rest, Splits text.toList.reverse (trailingOnes text) rest :=
    exists_splits hdigits
  have hlength : text.toList.length = text.length := String.length_toList
  have hn' : text.toList.length < 2 ^ 63 := hlength ▸ hn
  have hpass := Machine.passes_binaryIncrement ht hn' h
  rw [hlength] at hpass
  refine ⟨_, Library.find_binaryIncrement, fun hb => ?_, fun hb => hpass.exhausts hb⟩
  have ho := hpass.haltsAt rfl hb
  have hrendered := rendered_of_haltsAt ht hn' h (hlength ▸ ho)
  exact {
    halt := ho.halt
    state := ho.state
    steps := ho.steps
    binary := by
      rw [hrendered, String.toList_ofList]
      exact (h.isBinary_carried hdigits).reverse
    value := by
      rw [hrendered, value, String.toList_ofList, List.reverse_reverse, h.number_carried]
      rfl
    length := by
      rw [hrendered, ← String.length_toList, String.toList_ofList, List.length_reverse,
        h.length_carried, List.length_reverse, hlength]
      simp only [List.mem_reverse] }

/-- Eleven plus one is twelve, after eight steps. -/
theorem increments_eleven :
    IsBinary "1011".toList ∧ "1011".length < 2 ^ 63 ∧
      "1011".length + trailingOnes "1011" + 2 ≤ (8 : StepCount).toNat ∧
      Incremented "1011" (Machine.binaryIncrement.run (Machine.binaryIncrement.tape "1011") 8) := by
  have ht : IsBinary "1011".toList := by simp [IsBinary]
  have hlength : "1011".length = 4 := rfl
  have hn : "1011".length < 2 ^ 63 := by omega
  have hb : "1011".length + trailingOnes "1011" + 2 ≤ (8 : StepCount).toNat := by
    decide
  obtain ⟨builtin, hfind, hall, -⟩ := increments "1011" ht hn 8
  rw [Library.find_binaryIncrement] at hfind
  cases hfind
  exact ⟨ht, hn, hb, hall hb⟩

end TapeMachine
