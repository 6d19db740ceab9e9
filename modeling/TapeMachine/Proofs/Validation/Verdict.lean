import Mathlib
import TapeMachine.Proofs.Table
import TapeMachine.Validation
/-!
# What passing the checks means

`validate_eq_ok_iff`: the machines that pass are those that declare all that they use, said through
what can be looked up in the table and not through its rules. `validateTape_eq_ok_iff`: the texts
that pass have known symbols only.
-/

namespace TapeMachine

open Validation

/-- Nothing is reported of items that are all known. -/
theorem ascending_unknown_eq_nil_iff {α : Type} [Ord α] [Std.TransOrd α] [Std.LawfulEqOrd α]
    [DecidableEq α] {known items : List α} :
    ascending (items.filter (· ∉ known)) = [] ↔ ∀ x ∈ items, x ∈ known := by
  simp only [List.eq_nil_iff_forall_not_mem, mem_ascending, List.mem_filter, decide_eq_true_eq,
    not_and, not_not]

namespace Machine

variable {m : Machine} {input : String} {symbol : Symbol}

theorem mem_knownSymbols : symbol ∈ m.knownSymbols ↔ symbol ∈ m.alphabet ∨ symbol = m.blank := by
  simp [knownSymbols]

/-- All that the machine uses is declared. -/
@[mk_iff] structure IsDeclared (m : Machine) : Prop where
  start : m.start ∈ m.states
  halt : m.halt ∈ m.states
  states : ∀ state symbol t, m.transition? state symbol = some t →
    state ∈ m.states ∧ t.next ∈ m.states
  symbols : ∀ state symbol t, m.transition? state symbol = some t →
    symbol ∈ m.knownSymbols ∧ t.write ∈ m.knownSymbols

/-- What holds of all rules holds of all that can be looked up. -/
theorem forall_rules_iff {p : State → Symbol → Transition → Prop} :
    (∀ rule ∈ m.table.rules, p rule.state rule.symbol rule.transition) ↔
      ∀ state symbol t, m.transition? state symbol = some t → p state symbol t := by
  constructor
  · intro h state symbol t ht
    exact h ⟨state, symbol, t⟩ (Table.mem_rules.2 ht)
  · intro h rule hr
    exact h rule.state rule.symbol rule.transition (Table.mem_rules.1 hr)

theorem undeclaredStates_eq_nil_iff :
    undeclaredStates m.states m.table.rules = [] ↔
      ∀ state symbol t, m.transition? state symbol = some t →
        state ∈ m.states ∧ t.next ∈ m.states := by
  rw [undeclaredStates, ascending_unknown_eq_nil_iff, List.forall_mem_flatMap,
    ← forall_rules_iff (p := fun state _ t => state ∈ m.states ∧ t.next ∈ m.states)]
  simp

theorem undeclaredSymbols_eq_nil_iff :
    undeclaredSymbols m.knownSymbols m.table.rules = [] ↔
      ∀ state symbol t, m.transition? state symbol = some t →
        symbol ∈ m.knownSymbols ∧ t.write ∈ m.knownSymbols := by
  rw [undeclaredSymbols, ascending_unknown_eq_nil_iff, List.forall_mem_flatMap,
    ← forall_rules_iff (p := fun _ symbol t => symbol ∈ m.knownSymbols ∧ t.write ∈ m.knownSymbols)]
  simp

theorem firstDefect_eq_none_iff {states : List State} {known : List Symbol} {start halt : State}
    {rules : List Rule} :
    firstDefect states known start halt rules = none ↔ start ∈ states ∧ halt ∈ states ∧
      undeclaredStates states rules = [] ∧ undeclaredSymbols known rules = [] := by
  unfold firstDefect
  split_ifs <;> simp_all

theorem validate_eq_ok_iff : m.validate = .ok () ↔ m.IsDeclared := by
  have hnone : m.validate = .ok () ↔
      firstDefect m.states m.knownSymbols m.start m.halt m.table.rules = none := by
    rw [validate]
    split <;> simp_all
  rw [hnone, firstDefect_eq_none_iff, undeclaredStates_eq_nil_iff, undeclaredSymbols_eq_nil_iff,
    isDeclared_iff]

theorem validateTape_eq_ok_iff :
    m.validateTape input = .ok () ↔ ∀ symbol ∈ input.toList, symbol ∈ m.knownSymbols := by
  rw [← ascending_unknown_eq_nil_iff, ← foreignSymbols, validateTape]
  split <;> simp_all

end Machine

end TapeMachine
