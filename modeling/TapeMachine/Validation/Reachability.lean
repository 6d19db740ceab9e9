import TapeMachine.Ascending
import TapeMachine.Machine
/-!
# Reachable states

Which states can be entered from the start state if every transition can be taken. The search works
on the edges that have not been used: those of a state are used up when it is seen first, so the
edges and the states still waiting become fewer with every round.
-/
namespace TapeMachine

open Std

namespace Validation

/-- The edges that leave a state. -/
def leaving (state : State) (edges : List (State × State)) : List (State × State) :=
  edges.filter (·.1 = state)

/-- The edges that leave other states. -/
def notLeaving (state : State) (edges : List (State × State)) : List (State × State) :=
  edges.filter (¬ ·.1 = state)

theorem length_leaving_add_length_notLeaving (state : State) (edges : List (State × State)) :
    (leaving state edges).length + (notLeaving state edges).length = edges.length := by
  simpa [leaving, notLeaving, List.countP_eq_length_filter, eq_comm] using
    List.length_eq_countP_add_countP (fun e : State × State => decide (e.1 = state)) (l := edges)

/-- The states in `seen` and those that `edges` lead to from `waiting`. -/
def reach (edges : List (State × State)) (waiting : List State) (seen : ExtTreeSet State) :
    ExtTreeSet State :=
  match waiting with
  | [] => seen
  | state :: waiting =>
    if seen.contains state then reach edges waiting seen
    else
      reach (notLeaving state edges) ((leaving state edges).map (·.2) ++ waiting)
        (seen.insert state)
termination_by edges.length + waiting.length
decreasing_by
  · simp
  · have := length_leaving_add_length_notLeaving state edges
    simp only [List.length_append, List.length_map, List.length_cons]
    omega

/-- The source and the target state of each rule. -/
def edges (rules : List Rule) : List (State × State) :=
  rules.map fun rule => (rule.state, rule.transition.next)

/-- The states that rules lead to from a state, this one included. -/
def reachable (rules : List Rule) (start : State) : ExtTreeSet State :=
  reach (edges rules) [start] ∅

/-- The states out of a list that rules do not lead to. -/
def unreachable (rules : List Rule) (start : State) (states : List State) : List State :=
  let reached := reachable rules start
  ascending (states.filter fun state => ¬ reached.contains state)

end Validation

/-- The declared states that cannot be reached from the start state, in ascending order. -/
def Machine.unreachableStates (m : Machine) : List State :=
  Validation.unreachable m.table.rules m.start m.states

end TapeMachine
