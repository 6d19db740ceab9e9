import Mathlib
import TapeMachine.Proofs.Ascending
import TapeMachine.Proofs.Validation.Reachability
/-!
# Searching with a list of waiting states

States can also be looked for with a list of those that still wait, on which a state may stand more
than once and which may grow with every round. Such a search ends all the same, because what grows the
list are edges that are not used again (`Rounds.add_pending_le`), and when nothing waits it has seen
the states that can be reached (`Explores.mem_seen_iff`). The order in which it comes upon the rules
makes no difference: `findsUnreachable`.
-/

namespace TapeMachine

open Std

namespace Validation

/-- How far a search has got: the states that wait to be looked at, the next one first, and those that
have been seen. -/
structure Search where
  waiting : List State
  seen : ExtTreeSet State

variable {rules rules' : List Rule} {state first a b : State} {seen : ExtTreeSet State}
  {s s' : Search} {n : Nat}

namespace Search

/-- A search before its first round. -/
def start (state : State) : Search := ⟨[state], ∅⟩

/-- What the rules of a state lead to and has not been seen, as often as rules lead there. -/
def targets (rules : List Rule) (state : State) (seen : ExtTreeSet State) : List State :=
  ((leaving state (edges rules)).map (·.2)).filter (· ∉ seen)

/-- One round: the next state is taken off the list, and when it is seen for the first time its targets
are put there, one after the other. -/
def round? (rules : List Rule) : Search → Option Search
  | ⟨[], _⟩ => none
  | ⟨state :: waiting, seen⟩ =>
    if state ∈ seen then some ⟨waiting, seen⟩
    else some ⟨(targets rules state (seen.insert state)).reverse ++ waiting, seen.insert state⟩

theorem round?_eq_none_iff : s.round? rules = none ↔ s.waiting = [] := by
  rcases s with ⟨_ | ⟨state, waiting⟩, seen⟩
  · simp [round?]
  · rw [round?]
    split <;> simp

/-- What a round can do. -/
theorem round?_cases (h : s.round? rules = some s') : ∃ state waiting, s.waiting = state :: waiting ∧
    ((state ∈ s.seen ∧ s' = ⟨waiting, s.seen⟩) ∨ (state ∉ s.seen ∧
      s' = ⟨(targets rules state (s.seen.insert state)).reverse ++ waiting, s.seen.insert state⟩)) := by
  rcases s with ⟨_ | ⟨state, waiting⟩, seen⟩
  · cases h
  · rw [round?] at h
    refine ⟨state, waiting, rfl, ?_⟩
    split at h
    · exact .inl ⟨‹_›, (Option.some.inj h).symm⟩
    · exact .inr ⟨‹_›, (Option.some.inj h).symm⟩

theorem mem_targets : b ∈ targets rules state seen ↔ (state, b) ∈ edges rules ∧ b ∉ seen := by
  simp [targets, mem_leaving]

theorem mem_edges_of_perm (hp : rules'.Perm rules) : (a, b) ∈ edges rules' ↔ (a, b) ∈ edges rules :=
  (hp.map _).mem_iff

end Search

open Search

/-- So many rounds lead from one search to the other. Each of them goes through the rules in an order
of its own. -/
inductive Rounds (rules : List Rule) : Nat → Search → Search → Prop
  | none (s : Search) : Rounds rules 0 s s
  | more {n : Nat} {s s' s'' : Search} {rules' : List Rule} :
    Rounds rules n s s' → rules'.Perm rules → s'.round? rules' = some s'' → Rounds rules (n + 1) s s''

/-! ## The search ends -/

/-- The edges that have not been used, since the state that they leave has not been seen. -/
def unused (seen : ExtTreeSet State) (edges : List (State × State)) : List (State × State) :=
  edges.filter (·.1 ∉ seen)

/-- The most rounds that can follow: one for each state that waits and for each edge that can still put
one on the list. -/
def Search.pending (rules : List Rule) (s : Search) : Nat :=
  (unused s.seen (edges rules)).length + s.waiting.length

/-- When a state is seen for the first time all of its edges are used up. -/
theorem length_unused_insert (edges : List (State × State)) (h : state ∉ seen) :
    (leaving state edges).length + (unused (seen.insert state) edges).length =
      (unused seen edges).length := by
  have hleaving : leaving state (unused seen edges) = leaving state edges := by
    rw [leaving, unused, List.filter_filter, leaving]
    refine List.filter_congr fun edge _ => ?_
    by_cases he : edge.1 = state <;> simp [he, h]
  have hunused : notLeaving state (unused seen edges) = unused (seen.insert state) edges := by
    rw [notLeaving, unused, List.filter_filter, unused]
    refine List.filter_congr fun edge _ => ?_
    simp [@eq_comm _ state]
  rw [← length_leaving_add_length_notLeaving state (unused seen edges), hleaving, hunused]

theorem pending_of_perm (hp : rules'.Perm rules) (s : Search) : s.pending rules' = s.pending rules := by
  have hlength := ((hp.map fun rule => (rule.state, rule.transition.next)).filter
    (·.1 ∉ s.seen)).length_eq
  exact congrArg (· + s.waiting.length) hlength

theorem pending_lt_of_round? (h : s.round? rules = some s') : s'.pending rules < s.pending rules := by
  obtain ⟨state, waiting, hw, ⟨-, rfl⟩ | ⟨hseen, rfl⟩⟩ := round?_cases h
  · simp [pending, hw]
  · have hused := length_unused_insert (edges rules) hseen
    have htargets : (targets rules state (s.seen.insert state)).length ≤
        (leaving state (edges rules)).length :=
      (List.length_filter_le _ _).trans (by rw [List.length_map])
    simp only [pending, hw, List.length_append, List.length_reverse, List.length_cons]
    omega

theorem Rounds.add_pending_le (h : Rounds rules n s s') : n + s'.pending rules ≤ s.pending rules := by
  induction h with
  | none => simp
  | more _ hp hround ih =>
    have hlt := pending_lt_of_round? hround
    rw [pending_of_perm hp, pending_of_perm hp] at hlt
    omega

/-! ## What it has seen -/

/-- All states that the search has come upon can be reached, and what it has not yet come upon can only
be reached by way of those that wait. -/
structure Explores (rules : List Rule) (first : State) (s : Search) : Prop where
  begins : first ∈ s.waiting ∨ first ∈ s.seen
  sound : ∀ a, a ∈ s.waiting ∨ a ∈ s.seen → Leads (edges rules) first a
  closed : ∀ a b, a ∈ s.seen → (a, b) ∈ edges rules → b ∈ s.waiting ∨ b ∈ s.seen

theorem explores_start (rules : List Rule) (first : State) : Explores rules first (.start first) where
  begins := .inl (List.mem_singleton.2 rfl)
  sound a ha := by
    obtain rfl : a = first := by simpa [start] using ha
    exact .refl
  closed a b ha := by simp [start] at ha

theorem Explores.round (h : Explores rules first s) (hp : rules'.Perm rules)
    (hround : s.round? rules' = some s') : Explores rules first s' := by
  obtain ⟨state, waiting, hw, ⟨hseen, rfl⟩ | ⟨hseen, rfl⟩⟩ := round?_cases hround
  · -- the state waited a second time
    have hleft : ∀ a, a ∈ s.waiting ∨ a ∈ s.seen → a ∈ waiting ∨ a ∈ s.seen := by
      rintro a (ha | ha)
      · rw [hw, List.mem_cons] at ha
        rcases ha with rfl | ha
        · exact .inr hseen
        · exact .inl ha
      · exact .inr ha
    refine ⟨hleft _ h.begins, ?_, fun a b ha hedge => hleft _ (h.closed a b ha hedge)⟩
    rintro a (ha | ha)
    · exact h.sound a (.inl (hw ▸ List.mem_cons_of_mem _ ha))
    · exact h.sound a (.inr ha)
  · have hstate := h.sound state (.inl (hw ▸ List.mem_cons_self))
    have hleft : ∀ a, a ∈ s.waiting ∨ a ∈ s.seen →
        a ∈ (targets rules' state (s.seen.insert state)).reverse ++ waiting ∨
          a ∈ s.seen.insert state := by
      rintro a (ha | ha)
      · rw [hw, List.mem_cons] at ha
        rcases ha with rfl | ha
        · exact .inr (mem_insert_seen.2 (.inl rfl))
        · exact .inl (List.mem_append_right _ ha)
      · exact .inr (mem_insert_seen.2 (.inr ha))
    refine ⟨hleft _ h.begins, ?_, ?_⟩
    · rintro a (ha | ha)
      · rcases List.mem_append.1 ha with ha | ha
        · rw [List.mem_reverse, mem_targets, mem_edges_of_perm hp] at ha
          exact hstate.tail ha.1
        · exact h.sound a (.inl (hw ▸ List.mem_cons_of_mem _ ha))
      · rcases mem_insert_seen.1 ha with rfl | ha
        · exact hstate
        · exact h.sound a (.inr ha)
    · intro a b ha hedge
      rcases mem_insert_seen.1 ha with rfl | ha
      · by_cases hb : b ∈ s.seen.insert a
        · exact .inr hb
        · refine .inl (List.mem_append_left _ ?_)
          rw [List.mem_reverse, mem_targets, mem_edges_of_perm hp]
          exact ⟨hedge, hb⟩
      · exact hleft _ (h.closed a b ha hedge)

theorem Rounds.explores (h : Rounds rules n (.start first) s) : Explores rules first s := by
  generalize hstart : Search.start first = begun at h
  induction h with
  | none => exact hstart ▸ explores_start rules first
  | more _ hp hround ih => exact (ih hstart).round hp hround

theorem Explores.mem_seen_iff (h : Explores rules first s) (hw : s.waiting = []) :
    a ∈ s.seen ↔ Leads (edges rules) first a := by
  have hnone : ∀ b, b ∈ s.waiting ∨ b ∈ s.seen → b ∈ s.seen := by simp [hw]
  constructor
  · exact fun ha => h.sound a (.inr ha)
  · intro hleads
    induction hleads with
    | refl => exact hnone _ h.begins
    | tail _ hedge ih => exact hnone _ (h.closed _ _ ih hedge)

end Validation

/-! ## What is reported -/

namespace Machine

open Validation

variable {m : Machine} {rules : List Rule} {s : Search} {n : Nat}

/-- The states that are reported are those that are declared and cannot be reached. They are the same
for every order of the rules, and a search with a list of waiting states comes to an end, after no more
rounds than there are transitions and one, and to the same report. -/
structure FindsUnreachable (m : Machine) : Prop where
  lists : Lists m.unreachableStates fun state => state ∈ m.states ∧ ¬ m.Reaches state
  order : ∀ rules, rules.Perm m.table.rules →
    unreachable rules m.start m.states = m.unreachableStates
  bounded : ∀ n s, Rounds m.table.rules n (.start m.start) s → n ≤ m.table.size + 1
  goesOn : ∀ rules (s : Search), s.waiting ≠ [] → ∃ s', s.round? rules = some s'
  finds : ∀ n s, Rounds m.table.rules n (.start m.start) s → s.waiting = [] →
    ascending (m.states.filter (· ∉ s.seen)) = m.unreachableStates

theorem lists_unreachable (rules : List Rule) (first : State) (states : List State) :
    Lists (unreachable rules first states)
      fun state => state ∈ states ∧ ¬ Leads (edges rules) first state :=
  (lists_ascending _).congr fun _ => mem_ascending.symm.trans mem_unreachable

theorem lists_unreachableStates (m : Machine) :
    Lists m.unreachableStates fun state => state ∈ m.states ∧ ¬ m.Reaches state :=
  (lists_unreachable _ _ _).congr fun _ => by rw [leads_edges_iff]

theorem unreachable_of_perm (hp : rules.Perm m.table.rules) :
    unreachable rules m.start m.states = m.unreachableStates := by
  refine (lists_unreachable _ _ _).unique ((lists_unreachable _ _ _).congr fun state => ?_)
  simp only [Leads, Search.mem_edges_of_perm hp]

/-- The states that a finished search has not seen are those that are reported. -/
theorem ascending_of_rounds (h : Rounds m.table.rules n (.start m.start) s) (hw : s.waiting = []) :
    ascending (m.states.filter (· ∉ s.seen)) = m.unreachableStates := by
  refine (lists_ascending _).unique (m.lists_unreachableStates.congr fun state => ?_)
  rw [List.mem_filter, decide_eq_true_eq, h.explores.mem_seen_iff hw, leads_edges_iff]

theorem findsUnreachable (m : Machine) : m.FindsUnreachable where
  lists := m.lists_unreachableStates
  order _ := unreachable_of_perm
  bounded n s h := by
    have hle := h.add_pending_le
    have hstart : (Search.start m.start).pending m.table.rules = m.table.size + 1 := by
      simp [Search.pending, Search.start, unused, edges, Table.length_rules]
    omega
  goesOn rules s hw := Option.ne_none_iff_exists'.1 (mt Search.round?_eq_none_iff.1 hw)
  finds _ _ := ascending_of_rounds

end Machine

end TapeMachine
