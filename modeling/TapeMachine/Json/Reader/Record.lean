import TapeMachine.Json.Reader
/-!
# Readers of records

A record is read into slots, one for each of its fields. In an object the members may come in any
order, unknown ones are skipped and none of the fields may come twice; in an array the fields stand
in the order of their declaration. Either way `Shape.complete` then makes the record, unless a slot
that has to be filled is empty.
-/
namespace TapeMachine.Json.Reader

variable {α σ : Type}

/-- A field of a record: its name, whether its slot is filled, and the reader of its value. -/
structure RecordField (σ : Type) where
  name : String
  isSet : σ → Bool
  value : Reader (σ → σ)

/-- The field of a slot, given how to look at the slot and how to set it. -/
def RecordField.ofSlot (name : String) (get : σ → Option α) (set : Option α → σ → σ)
    (value : Reader α) : RecordField σ :=
  ⟨name, fun slots => (get slots).isSome, value.map fun x => set (some x)⟩

/-- A record: what it is called, its fields in order, its slots when nothing has been read, and
how the slots make a value. `complete` fails with the name of the first field that is missing. -/
structure Shape (σ α : Type) where
  title : String
  fields : List (RecordField σ)
  blank : σ
  complete : σ → Except String α

/-- Where a second member of the same name is found at fault: a closing bracket right behind the
name is taken with it. -/
def pastRepeated (s : List Char) : List Char :=
  match skipBlanks s with
  | '}' :: rest => rest
  | rest => rest

/-- Reads the members of an object into the slots. -/
def readMembers (fields : List (RecordField σ)) (first : Bool) (slots : σ) (s : List Char) :
    Except Fault (σ × List Char) :=
  match _h : nextName first s with
  | .error fault => .error fault
  | .ok (.done rest) => .ok (slots, rest)
  | .ok (.more name rest) =>
    match fields.find? (·.name = name) with
    | none =>
      match _h' : readColon rest >>= skipValue with
      | .error fault => .error fault
      | .ok rest => readMembers fields false slots rest
    | some field =>
      if field.isSet slots then .error (.here (.duplicateField name) (pastRepeated rest))
      else
        match _h' : readColon rest >>= field.value.read with
        | .error fault => .error fault
        | .ok (update, rest) => readMembers fields false (update slots) rest
termination_by s.length
decreasing_by
  · obtain ⟨r, hr, hv⟩ := bind_eq_ok_iff.1 _h'
    exact Nat.lt_trans (length_skipValue hv)
      (Nat.lt_trans (length_readColon hr) (length_nextName _h))
  · obtain ⟨r, hr, hv⟩ := bind_eq_ok_iff.1 _h'
    exact Nat.lt_trans (field.value.shortens hv)
      (Nat.lt_trans (length_readColon hr) (length_nextName _h))

theorem length_readMembers {fields : List (RecordField σ)} {first : Bool} {slots filled : σ}
    {s rest : List Char} (h : readMembers fields first slots s = .ok (filled, rest)) :
    rest.length ≤ s.length := by
  fun_induction readMembers fields first slots s with
  | case1 => simp at h
  | case2 _ _ _ _ hn =>
    cases h
    exact Nat.le_of_lt (length_nextName hn)
  | case3 => simp at h
  | case4 =>
    rename_i hn _ _ hv ih
    obtain ⟨r, hr, hv⟩ := bind_eq_ok_iff.1 hv
    have := ih h
    have := length_skipValue hv
    have := length_readColon hr
    have := length_nextName hn
    simp only [Next.rest] at this
    omega
  | case5 => simp at h
  | case6 => simp at h
  | case7 =>
    rename_i hn field _ _ _ _ hv ih
    obtain ⟨r, hr, hv⟩ := bind_eq_ok_iff.1 hv
    have := ih h
    have := field.value.shortens hv
    have := length_readColon hr
    have := length_nextName hn
    simp only [Next.rest] at this
    omega

/-- Reads the elements of an array into the slots of the fields, one after the other. The array
may end before the fields do. -/
def readFields : List (RecordField σ) → (first : Bool) → (slots : σ) → (s : List Char) →
    Except Fault (σ × List Char)
  | [], _, slots, s => do return (slots, ← closeArray s)
  | field :: fields, first, slots, s =>
    match nextElement first s with
    | .error fault => .error fault
    | .ok (.done rest) => .ok (slots, rest)
    | .ok (.more () rest) =>
      match field.value.read rest with
      | .error fault => .error fault
      | .ok (update, rest) => readFields fields false (update slots) rest

theorem length_readFields {fields : List (RecordField σ)} {first : Bool} {slots filled : σ}
    {s rest : List Char} (h : readFields fields first slots s = .ok (filled, rest)) :
    rest.length ≤ s.length := by
  fun_induction readFields fields first slots s with
  | case1 =>
    obtain ⟨r, hr, h⟩ := bind_eq_ok_iff.1 h
    cases pure_eq_ok_iff.1 h
    exact Nat.le_of_lt (length_closeArray hr)
  | case2 => simp at h
  | case3 _ _ _ _ _ _ hn =>
    cases h
    exact length_nextElement hn
  | case4 => simp at h
  | case5 field _ _ _ _ _ hn _ _ hr ih =>
    have := ih h
    have := field.value.shortens hr
    have := length_nextElement hn
    simp only [Next.rest] at this
    omega

namespace Shape

variable (shape : Shape σ α)

/-- How a message names the record together with its length. -/
def description : String :=
  shape.title ++ " with " ++ toString shape.fields.length ++ " elements"

/-- Reads the record after an opening brace. -/
def readObject (s : List Char) : Except Fault (α × List Char) := do
  let (slots, rest) ← readMembers shape.fields true shape.blank s
  match shape.complete slots with
  | .ok x => return (x, rest)
  | .error name => throw (.here (.missingField name) rest)

/-- Reads the record after an opening bracket. -/
def readArray (s : List Char) : Except Fault (α × List Char) := do
  let (slots, rest) ← readFields shape.fields true shape.blank s
  match shape.complete slots with
  | .ok x => return (x, rest)
  | .error name =>
    throw (.here (.invalidLength (shape.fields.findIdx (·.name = name)) shape.description) rest)

theorem length_readObject {s rest : List Char} {x : α} (h : shape.readObject s = .ok (x, rest)) :
    rest.length ≤ s.length := by
  obtain ⟨⟨_, r⟩, hr, h⟩ := bind_eq_ok_iff.1 h
  have := length_readMembers hr
  dsimp only at h
  split at h
  · cases pure_eq_ok_iff.1 h
    exact this
  · exact absurd h throw_ne_ok

theorem length_readArray {s rest : List Char} {x : α} (h : shape.readArray s = .ok (x, rest)) :
    rest.length ≤ s.length := by
  obtain ⟨⟨_, r⟩, hr, h⟩ := bind_eq_ok_iff.1 h
  have := length_readFields hr
  dsimp only at h
  split at h
  · cases pure_eq_ok_iff.1 h
    exact this
  · exact absurd h throw_ne_ok

end Shape

/-- Reads a record from an array. -/
def tuple (shape : Shape σ α) : Reader α where
  read s :=
    match skipBlanks s with
    | '[' :: s => shape.readArray s
    | s => .error (mismatch shape.title s)
  shortens := by
    intro s rest x h
    have := length_skipBlanks_le s
    split at h
    · have := shape.length_readArray h
      simp_all
      omega
    · simp at h

/-- Reads a record from an object or an array. -/
def record (shape : Shape σ α) : Reader α where
  read s :=
    match skipBlanks s with
    | '{' :: s => shape.readObject s
    | '[' :: s => shape.readArray s
    | s => .error (mismatch shape.title s)
  shortens := by
    intro s rest x h
    have := length_skipBlanks_le s
    split at h
    · have := shape.length_readObject h
      simp_all
      omega
    · have := shape.length_readArray h
      simp_all
      omega
    · simp at h

/-- Reads a value from a whole text, in which only blanks may follow it. -/
def parse (reader : Reader α) (text : String) : Except Error α :=
  let s := text.toList
  match reader.read s with
  | .error fault => .error (fault.inText s)
  | .ok (x, rest) =>
    match skipBlanks rest with
    | [] => .ok x
    | rest => .error ((Fault.next .trailingCharacters rest).inText s)

end TapeMachine.Json.Reader
