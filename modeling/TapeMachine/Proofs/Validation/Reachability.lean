import Mathlib
import TapeMachine.Proofs.Table
import TapeMachine.Validation.Reachability
/-!
# The search finds what can be reached

The search uses every edge at most once, and forgets the edges of a state when it has seen it. What
it then finds from the states that wait is still all that they lead to: `mem_reach`, because a path
that comes back to a state it has left can be taken from there. `mem_unreachableStates`: what is
reported are the declared states to which no path of transitions leads from the start.
-/

namespace TapeMachine

open Std

namespace Validation

variable {edges : List (State × State)} {waiting : List State} {seen : ExtTreeSet State}
  {state a b : State}

/-- There is a path of edges from one state to the other. -/
def Leads (edges : List (State × State)) : State → State → Prop :=
  Relation.ReflTransGen fun a b => (a, b) ∈ edges

theorem mem_leaving : (a, b) ∈ leaving state edges ↔ (a, b) ∈ edges ∧ a = state := by
  simp [leaving]

theorem mem_notLeaving : (a, b) ∈ notLeaving state edges ↔ (a, b) ∈ edges ∧ a ≠ state := by
  simp [notLeaving]

theorem Leads.of_notLeaving (h : Leads (notLeaving state edges) a b) : Leads edges a b :=
  Relation.ReflTransGen.mono (fun _ _ hedge => (mem_notLeaving.1 hedge).1) _ _ h

/-- A path avoids the edges of a state, ends there or goes on from there without coming back. -/
theorem Leads.avoid (h : Leads edges a b) (state : State) :
    Leads (notLeaving state edges) a b ∨ b = state ∨
      ∃ c, (state, c) ∈ edges ∧ Leads (notLeaving state edges) c b := by
  induction h with
  | refl => exact .inl .refl
  | @tail b b' _ hedge ih =>
    by_cases hb : b = state
    · subst hb
      exact .inr (.inr ⟨b', hedge, .refl⟩)
    · have hedge : (b, b') ∈ notLeaving state edges := mem_notLeaving.2 ⟨hedge, hb⟩
      rcases ih with h | rfl | ⟨c, hc, h⟩
      · exact .inl (h.tail hedge)
      · exact absurd rfl hb
      · exact .inr (.inr ⟨c, hc, h.tail hedge⟩)

theorem leads_iff :
    Leads edges state b ↔
      b = state ∨ ∃ c, (state, c) ∈ edges ∧ Leads (notLeaving state edges) c b := by
  constructor
  · intro h
    rcases h.avoid state with h | h
    · -- no edge that is left leaves the state
      rcases h.cases_head with rfl | ⟨c, hedge, -⟩
      · exact .inl rfl
      · exact absurd rfl (mem_notLeaving.1 hedge).2
    · exact h
  · rintro (rfl | ⟨c, hedge, h⟩)
    · exact .refl
    · exact .head hedge h.of_notLeaving

theorem mem_insert_seen : b ∈ seen.insert state ↔ b = state ∨ b ∈ seen := by
  rw [ExtTreeSet.mem_insert, Std.compare_eq_iff_eq, eq_comm]

/-- The search finds what it has seen and what the waiting states lead to, provided that no edge
leaves a state that it has seen. -/
theorem mem_reach (h : ∀ edge ∈ edges, edge.1 ∉ seen) :
    b ∈ reach edges waiting seen ↔ b ∈ seen ∨ ∃ a ∈ waiting, Leads edges a b := by
  fun_induction reach edges waiting seen with
  | case1 => simp
  | case2 edges seen state waiting hseen ih =>
    rw [ih h]
    have hseen : state ∈ seen := ExtTreeSet.contains_iff_mem.1 hseen
    constructor
    · rintro (hb | ⟨a, ha, hab⟩)
      · exact .inl hb
      · exact .inr ⟨a, List.mem_cons_of_mem _ ha, hab⟩
    · rintro (hb | ⟨a, ha, hab⟩)
      · exact .inl hb
      rcases List.mem_cons.1 ha with rfl | ha
      · -- all edges of a seen state are used up
        rcases hab.cases_head with rfl | ⟨c, hedge, -⟩
        · exact .inl hseen
        · exact absurd hseen (h _ hedge)
      · exact .inr ⟨a, ha, hab⟩
  | case3 edges seen state waiting hseen ih =>
    have hunused : ∀ edge ∈ notLeaving state edges, edge.1 ∉ seen.insert state := by
      rintro ⟨a, c⟩ hedge
      obtain ⟨hedge, hne⟩ := mem_notLeaving.1 hedge
      rw [mem_insert_seen, not_or]
      exact ⟨hne, h _ hedge⟩
    rw [ih hunused]
    simp only [mem_insert_seen, List.mem_append, List.mem_map, List.mem_cons]
    constructor
    · rintro ((rfl | hb) | ⟨a, ⟨⟨c, d⟩, hedge, rfl⟩ | ha, hab⟩)
      · exact .inr ⟨b, .inl rfl, .refl⟩
      · exact .inl hb
      · obtain ⟨hmem, rfl⟩ := mem_leaving.1 hedge
        exact .inr ⟨c, .inl rfl, leads_iff.2 (.inr ⟨d, hmem, hab⟩)⟩
      · exact .inr ⟨a, .inr ha, hab.of_notLeaving⟩
    · rintro (hb | ⟨a, rfl | ha, hab⟩)
      · exact .inl (.inr hb)
      · rcases leads_iff.1 hab with rfl | ⟨c, hedge, hcb⟩
        · exact .inl (.inl rfl)
        · exact .inr ⟨c, .inl ⟨(a, c), mem_leaving.2 ⟨hedge, rfl⟩, rfl⟩, hcb⟩
      · rcases hab.avoid state with hab | rfl | ⟨c, hedge, hcb⟩
        · exact .inr ⟨a, .inr ha, hab⟩
        · exact .inl (.inl rfl)
        · exact .inr ⟨c, .inl ⟨(state, c), mem_leaving.2 ⟨hedge, rfl⟩, rfl⟩, hcb⟩

theorem mem_reachable_iff_leads {rules : List Rule} :
    b ∈ reachable rules a ↔ Leads (Validation.edges rules) a b := by
  rw [reachable, mem_reach (by simp)]
  simp

theorem mem_unreachable {rules : List Rule} {states : List State} :
    b ∈ unreachable rules a states ↔ b ∈ states ∧ ¬ Leads (Validation.edges rules) a b := by
  rw [unreachable, mem_ascending, List.mem_filter, ← mem_reachable_iff_leads]
  simp

end Validation

namespace Machine

open Validation

variable {m : Machine} {state a b : State}

/-- A transition of the first state enters the second. -/
def Enters (m : Machine) (a b : State) : Prop :=
  ∃ symbol t, m.transition? a symbol = some t ∧ t.next = b

/-- Transitions lead from the start to the state, if each of them can be taken. -/
def Reaches (m : Machine) : State → Prop := Relation.ReflTransGen m.Enters m.start

theorem mem_edges : (a, b) ∈ edges m.table.rules ↔ m.Enters a b := by
  simp only [edges, List.mem_map, Table.mem_rules, Enters]
  constructor
  · rintro ⟨rule, hl, hedge⟩
    obtain ⟨rfl, rfl⟩ := Prod.mk.inj hedge
    exact ⟨rule.symbol, rule.transition, hl, rfl⟩
  · rintro ⟨symbol, t, hl, rfl⟩
    exact ⟨⟨a, symbol, t⟩, hl, rfl⟩

theorem leads_edges_iff : Leads (edges m.table.rules) m.start state ↔ m.Reaches state := by
  rw [Leads, Reaches, show (fun a b => (a, b) ∈ edges m.table.rules) = m.Enters from
    funext₂ fun _ _ => propext mem_edges]

theorem mem_reachable : state ∈ reachable m.table.rules m.start ↔ m.Reaches state :=
  mem_reachable_iff_leads.trans leads_edges_iff

theorem mem_unreachableStates :
    state ∈ m.unreachableStates ↔ state ∈ m.states ∧ ¬ m.Reaches state := by
  rw [unreachableStates, mem_unreachable, leads_edges_iff]

end Machine

end TapeMachine
