import Mathlib
import TapeMachine.Trace
/-!
# Trace lines

`line_inj`: a line tells its event if there is no space in the state that the event starts from. Each
field ends at the first mark of a kind that cannot stand in it, whatever comes after, and the last
field ends with the line. A symbol needs no mark: it is one character long, and may be any character.
-/

namespace TapeMachine

/-- A text is cut in one way only at its first mark. -/
theorem split_unique {mark : Char} {field field' rest rest' : List Char} (hm : mark ∉ field)
    (hm' : mark ∉ field') (h : field ++ mark :: rest = field' ++ mark :: rest') :
    field = field' ∧ rest = rest' := by
  induction field generalizing field' with
  | nil =>
    cases field' with
    | nil => exact ⟨rfl, List.tail_eq_of_cons_eq h⟩
    | cons c field' =>
      cases h
      exact absurd List.mem_cons_self hm'
  | cons c field ih =>
    cases field' with
    | nil =>
      cases h
      exact absurd List.mem_cons_self hm
    | cons c' field' =>
      obtain ⟨rfl, htail⟩ := List.cons.inj h
      obtain ⟨rfl, rfl⟩ :=
        ih (List.not_mem_of_not_mem_cons hm) (List.not_mem_of_not_mem_cons hm') htail
      exact ⟨rfl, rfl⟩

/-! ## Numbers -/

theorem isDigit_of_mem_toString {n : Nat} {c : Char} (h : c ∈ (toString n).toList) : c.isDigit := by
  rw [Nat.toString_eq_repr, Nat.toList_repr] at h
  exact Nat.isDigit_of_mem_toDigits (by decide) (by decide) h

theorem bracket_not_mem_toString (n : Nat) : ']' ∉ (toString n).toList := fun h =>
  absurd (isDigit_of_mem_toString h) (by decide)

theorem space_not_mem_toString (z : Int) : ' ' ∉ (toString z).toList := by
  intro h
  cases z with
  | ofNat n => exact absurd (isDigit_of_mem_toString h) (by decide)
  | negSucc n =>
    rw [Int.toString_eq_repr, Int.repr, String.toList_append] at h
    rcases List.mem_append.1 h with h | h
    · exact absurd h (by decide)
    · exact absurd (isDigit_of_mem_toString h) (by decide)

namespace TraceEvent

variable {e e' : TraceEvent}

/-! ## Lines -/

/-- The characters of a line: a number ends at a bracket or a space, a state at a space. -/
theorem toList_line (e : TraceEvent) :
    e.line.toList = "[step ".toList ++ ((toString e.step.toNat).toList ++ ']' ::
      (" state=".toList ++ (e.state.toList ++ ' ' ::
      ("head=".toList ++ ((toString e.head.toInt).toList ++ ' ' ::
      ("read=".toList ++ (e.read ::
      (" -> write=".toList ++ (e.write ::
      (" move=".toList ++ (e.direction.letter ::
      (" next=".toList ++ e.next.toList)))))))))))) := by
  unfold line
  simp only [String.toList_append, String.toList_singleton, String.reduceToList, List.append_assoc,
    List.cons_append, List.nil_append]

theorem line_inj (hs : ' ' ∉ e.state.toList) (hs' : ' ' ∉ e'.state.toList) :
    e.line = e'.line ↔ e = e' := by
  refine ⟨fun h => ?_, congrArg line⟩
  have h := congrArg String.toList h
  rw [toList_line, toList_line] at h
  -- the texts between the fields are the same on both sides
  have h := List.append_cancel_left h
  obtain ⟨hstep, h⟩ := split_unique (bracket_not_mem_toString _) (bracket_not_mem_toString _) h
  have h := List.append_cancel_left h
  obtain ⟨hstate, h⟩ := split_unique hs hs' h
  have h := List.append_cancel_left h
  obtain ⟨hhead, h⟩ := split_unique (space_not_mem_toString _) (space_not_mem_toString _) h
  obtain ⟨hread, h⟩ := List.cons.inj (List.append_cancel_left h)
  obtain ⟨hwrite, h⟩ := List.cons.inj (List.append_cancel_left h)
  obtain ⟨hdirection, h⟩ := List.cons.inj (List.append_cancel_left h)
  have hnext := List.append_cancel_left h
  -- and each field is spelled in one way
  have hstep : e.step = e'.step := UInt64.toNat_inj.1 (Nat.repr_inj.1 (String.toList_inj.1 hstep))
  have hhead : e.head = e'.head := Int64.toInt_inj.1 (Int.repr_inj.1 (String.toList_inj.1 hhead))
  have hdirection : e.direction = e'.direction := Direction.letter_injective _ _ hdirection
  rw [String.toList_inj] at hstate hnext
  cases e; cases e'
  simp_all

/-- An event with symbols and a next state that look like what stands between the fields. -/
def lookalike : TraceEvent :=
  ⟨10, "]state=", -1, ' ', '>', .left, "q head=0 read=\n -> write=> move=S next=r"⟩

theorem line_inj_lookalike :
    ' ' ∉ lookalike.state.toList ∧
      ' ' ∉ ({ lookalike with next := "q" } : TraceEvent).state.toList ∧
      (lookalike.line = ({ lookalike with next := "q" } : TraceEvent).line ↔
        lookalike = { lookalike with next := "q" }) :=
  have h : ' ' ∉ lookalike.state.toList := by decide
  ⟨h, h, line_inj h h⟩

/-- A space in one of the two states is enough for two events to share a line. -/
example :
    (⟨0, "a", 0, 'x', 'y', .left, "b head=0 read=x -> write=y move=L next=c"⟩ : TraceEvent).line =
      (⟨0, "a head=0 read=x -> write=y move=L next=b", 0, 'x', 'y', .left, "c"⟩ :
        TraceEvent).line := by
  rfl

end TraceEvent

end TapeMachine
