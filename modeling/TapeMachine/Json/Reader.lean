import TapeMachine.Json.Mismatch
import TapeMachine.Json.Skip
/-!
# Readers

A reader takes a value of a known type from the front of a text. It always takes something, so
readers can be repeated: `Reader.list` and `Reader.entries` read arrays and objects of any size.
`Reader.record` reads a value with named parts, which stand in an object in any order or in an
array in the order of their declaration.
-/
namespace TapeMachine.Json

variable {α β σ : Type}

/-- Reads a value and gives it with the text after it. -/
structure Reader (α : Type) where
  read : List Char → Except Fault (α × List Char)
  shortens : ∀ {s rest : List Char} {x : α}, read s = .ok (x, rest) → rest.length < s.length

/-! ## Moving on inside arrays and objects -/

/-- Where the reading of an array or an object goes on. -/
inductive Next (α : Type) where
  /-- The closing bracket has been read. -/
  | done (rest : List Char)
  | more (item : α) (rest : List Char)

/-- What is still unread. -/
def Next.rest : Next α → List Char
  | done rest => rest
  | more _ rest => rest

/-- Goes to the next element of an array, past the comma before it unless it is the `first`. -/
def nextElement (first : Bool) (s : List Char) : Except Fault (Next Unit) :=
  match skipBlanks s with
  | [] => .error (.next .endInList [])
  | ']' :: rest => .ok (.done rest)
  | c :: rest =>
    if first then .ok (.more () (c :: rest))
    else if c ≠ ',' then .error (.next .expectedListComma (c :: rest))
    else match skipBlanks rest with
      | [] => .error (.next .endInValue [])
      | ']' :: rest => .error (.next .trailingComma (']' :: rest))
      | rest => .ok (.more () rest)

/-- Reads a name whose opening quote has been read. -/
def readName (s : List Char) : Except Fault (Next String) := do
  let (name, rest) ← readString [] s
  return .more name rest

/-- Reads the name of the next member of an object, past the comma before it unless it is the
`first`. -/
def nextName (first : Bool) (s : List Char) : Except Fault (Next String) :=
  match skipBlanks s with
  | [] => .error (.next .endInObject [])
  | '}' :: rest => .ok (.done rest)
  | c :: rest =>
    if first then
      if c = '"' then readName rest else .error (.next .keyNotString (c :: rest))
    else if c ≠ ',' then .error (.next .expectedObjectComma (c :: rest))
    else match skipBlanks rest with
      | [] => .error (.next .endInValue [])
      | '"' :: rest => readName rest
      | '}' :: rest => .error (.next .trailingComma ('}' :: rest))
      | rest => .error (.next .keyNotString rest)

/-- Goes past the colon after a name. -/
def readColon (s : List Char) : Except Fault (List Char) :=
  match skipBlanks s with
  | ':' :: rest => .ok rest
  | [] => .error (.next .endInObject [])
  | rest => .error (.next .expectedColon rest)

/-- Goes past the bracket that closes an array of which all elements have been read. -/
def closeArray (s : List Char) : Except Fault (List Char) :=
  match skipBlanks s with
  | [] => .error (.next .endInList [])
  | ']' :: rest => .ok rest
  | ',' :: rest =>
    match skipBlanks rest with
    | ']' :: rest => .error (.next .trailingComma (']' :: rest))
    | rest => .error (.next .trailingCharacters rest)
  | rest => .error (.next .trailingCharacters rest)

theorem length_nextElement {first : Bool} {s : List Char} {next : Next Unit}
    (h : nextElement first s = .ok next) : next.rest.length ≤ s.length := by
  have hs := length_skipBlanks_le s
  unfold nextElement at h
  split at h
  · simp at h
  · rename_i hr
    cases h
    simp only [hr, List.length_cons] at hs
    exact Nat.le_of_lt hs
  · rename_i c r _ hr
    have := length_skipBlanks_le r
    simp only [hr, List.length_cons] at hs
    split at h
    · cases h
      exact hs
    · split at h
      · simp at h
      · split at h
        · simp at h
        · simp at h
        · cases h
          simp only [Next.rest]
          omega

theorem length_readName {s : List Char} {next : Next String} (h : readName s = .ok next) :
    next.rest.length < s.length := by
  obtain ⟨⟨text, r⟩, hr, h⟩ := bind_eq_ok_iff.1 h
  cases pure_eq_ok_iff.1 h
  exact length_readString hr

theorem length_nextName {first : Bool} {s : List Char} {next : Next String}
    (h : nextName first s = .ok next) : next.rest.length < s.length := by
  have hs := length_skipBlanks_le s
  unfold nextName at h
  split at h
  · simp at h
  · rename_i hr
    cases h
    simp only [hr, List.length_cons] at hs
    exact hs
  · rename_i c r _ hr
    have := length_skipBlanks_le r
    simp only [hr, List.length_cons] at hs
    split at h
    · split at h
      · have := length_readName h
        omega
      · simp at h
    · split at h
      · simp at h
      · split at h
        · simp at h
        · rename_i hr'
          have := length_readName h
          simp only [hr', List.length_cons] at *
          omega
        all_goals simp at h

theorem length_readColon {s rest : List Char} (h : readColon s = .ok rest) :
    rest.length < s.length := by
  have hs := length_skipBlanks_le s
  unfold readColon at h
  split at h
  · rename_i hr
    cases h
    rw [hr] at hs
    exact hs
  all_goals simp at h

theorem length_closeArray {s rest : List Char} (h : closeArray s = .ok rest) :
    rest.length < s.length := by
  have hs := length_skipBlanks_le s
  unfold closeArray at h
  split at h
  · simp at h
  · rename_i hr
    cases h
    rw [hr] at hs
    exact hs
  · split at h <;> simp at h
  · simp at h

namespace Reader

/-- Reads a value and makes another of it. -/
def map (f : α → β) (reader : Reader α) : Reader β where
  read s :=
    match reader.read s with
    | .ok (x, rest) => .ok (f x, rest)
    | .error fault => .error fault
  shortens := by
    intro s rest x h
    split at h
    · rename_i hr
      cases h
      exact reader.shortens hr
    · simp at h

/-! ## Scalars -/

/-- A string that `decode` accepts. -/
def text (expected : String) (decode : String → Except Cause α) : Reader α where
  read s :=
    match skipBlanks s with
    | '"' :: s => do
      let (t, rest) ← readString [] s
      match decode t with
      | .ok x => return (x, rest)
      | .error cause => throw (.here cause rest)
    | s => .error (mismatch expected s)
  shortens := by
    intro s rest x h
    have := length_skipBlanks_le s
    dsimp only at h
    split at h
    · obtain ⟨⟨t, r⟩, hr, h⟩ := bind_eq_ok_iff.1 h
      have := length_readString hr
      dsimp only at h
      split at h
      · obtain ⟨-, rfl⟩ := Prod.mk.inj (pure_eq_ok_iff.1 h)
        simp_all
        omega
      · exact absurd h throw_ne_ok
    · simp at h

/-- Any string. -/
def string : Reader String := text "a string" .ok

/-- Null, which stands for nothing, or a value. -/
def nullable (value : Reader α) : Reader (Option α) where
  read s :=
    match skipBlanks s with
    | 'n' :: s => do return (none, ← readWord ['u', 'l', 'l'] s)
    | s => do
      let (x, rest) ← value.read s
      return (some x, rest)
  shortens := by
    intro s rest x h
    have := length_skipBlanks_le s
    dsimp only at h
    split at h
    · obtain ⟨r, hr, h⟩ := bind_eq_ok_iff.1 h
      have := length_readWord hr
      cases pure_eq_ok_iff.1 h
      simp_all
      omega
    · obtain ⟨r, hr, h⟩ := bind_eq_ok_iff.1 h
      have := value.shortens hr
      cases pure_eq_ok_iff.1 h
      omega

end Reader

end TapeMachine.Json
