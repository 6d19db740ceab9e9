import Mathlib
import TapeMachine.Proofs.Json.Values
/-!
# Written records read back

Members fill the slots of a record one after the other (`Fills`), and so do the elements of an array
(`FillsInOrder`). If the slots are complete in the end the record is read: `reads_record`,
`reads_tuple`.
-/

namespace TapeMachine.Json

open Reader (RecordField Shape readMembers readFields)

variable {α σ : Type}

/-! ## Objects -/

/-- The members take the slots from one state to another: each belongs to a field that is not set
yet, and its text is read as an update of the slots. -/
inductive Fills (fields : List (RecordField σ)) : σ → List (String × List Char) → σ → Prop
  | nil (slots : σ) : Fills fields slots [] slots
  | cons {slots filled : σ} {name : String} {w : List Char} {update : σ → σ}
      {field : RecordField σ} {members : List (String × List Char)} :
      fields.find? (·.name = name) = some field → field.isSet slots = false →
      Reads field.value w update → Fills fields (update slots) members filled →
      Fills fields slots ((name, w) :: members) filled

/-- A member for a slot that is still empty. -/
theorem Fills.slot {fields : List (RecordField σ)} {slots filled : σ} {name : String}
    {w : List Char} {x : α} {get : σ → Option α} {set : Option α → σ → σ} {value : Reader α}
    {members : List (String × List Char)}
    (hf : fields.find? (·.name = name) = some (.ofSlot name get set value))
    (hs : get slots = none) (hx : Reads value w x)
    (h : Fills fields (set (some x) slots) members filled) :
    Fills fields slots ((name, w) :: members) filled :=
  .cons hf (by simp [RecordField.ofSlot, hs]) (hx.map _) h

theorem readMembers_done {fields : List (RecordField σ)} {first : Bool} {slots : σ}
    {s rest : List Char} (h : nextName first s = .ok (.done rest)) :
    readMembers fields first slots s = .ok (slots, rest) := by
  rw [readMembers]
  split <;> simp_all

theorem readMembers_more {fields : List (RecordField σ)} {first : Bool} {slots : σ}
    {name : String} {field : RecordField σ} {update : σ → σ} {s r rest : List Char}
    (h : nextName first s = .ok (.more name r))
    (hf : fields.find? (·.name = name) = some field) (hs : field.isSet slots = false)
    (hx : (readColon r >>= field.value.read) = .ok (update, rest)) :
    readMembers fields first slots s = readMembers fields false (update slots) rest := by
  rw [readMembers]
  split <;> simp_all
  split <;> simp_all

theorem readMembers_blockRest {fields : List (RecordField σ)} (layout : Layout) {slots filled : σ}
    {members : List (String × List Char)} (h : Fills fields slots members filled) (first : Bool)
    (rest : List Char) :
    readMembers fields first slots
        (blockRest layout '}' first (members.map (memberText layout)) ++ rest) =
      .ok (filled, rest) := by
  induction h generalizing first with
  | nil slots =>
    exact readMembers_done (nextName_close (skipBlanks_blockRest_nil layout (by decide) first rest))
  | cons hf hs hx _ ih =>
    rw [List.map_cons, readMembers_more (nextName_cons layout first _ _ rest) hf hs
      (readColon_value hx layout _), ih]

theorem reads_record {shape : Shape σ α} (layout : Layout) {filled : σ} {x : α}
    {members : List (String × List Char)} (h : Fills shape.fields shape.blank members filled)
    (hx : shape.complete filled = .ok x) :
    Reads (.record shape) (writeObject layout members) x where
  opens := opens_writeObject layout members
  read b rest hb := by
    simp only [Reader.record, skipBlanks_writeObject hb, Shape.readObject,
      readMembers_blockRest layout h]
    simp [bind, Except.bind, hx, pure, Except.pure]

/-! ## Arrays -/

/-- The elements take the slots from one state to another, one for each field. -/
inductive FillsInOrder : List (RecordField σ) → σ → List (List Char) → σ → Prop
  | nil (slots : σ) : FillsInOrder [] slots [] slots
  | cons {field : RecordField σ} {fields : List (RecordField σ)} {slots filled : σ}
      {w : List Char} {ws : List (List Char)} {update : σ → σ} :
      Reads field.value w update → FillsInOrder fields (update slots) ws filled →
      FillsInOrder (field :: fields) slots (w :: ws) filled

theorem readFields_blockRest {fields : List (RecordField σ)} (layout : Layout) {slots filled : σ}
    {ws : List (List Char)} (h : FillsInOrder fields slots ws filled) (first : Bool)
    (rest : List Char) :
    readFields fields first slots (blockRest layout ']' first ws ++ rest) = .ok (filled, rest) := by
  induction h generalizing first with
  | nil slots =>
    have hs : skipBlanks (blockRest layout ']' first [] ++ rest) = ']' :: rest :=
      skipBlanks_blockRest_nil layout (by decide) first rest
    simp [readFields, closeArray, hs, bind, Except.bind, pure, Except.pure]
  | cons hx _ ih =>
    simp only [readFields, nextElement_cons layout first hx.opens, hx.read_append, ih]

theorem reads_tuple {shape : Shape σ α} (layout : Layout) {filled : σ} {x : α}
    {ws : List (List Char)} (h : FillsInOrder shape.fields shape.blank ws filled)
    (hx : shape.complete filled = .ok x) :
    Reads (.tuple shape) (writeArray layout ws) x where
  opens := opens_writeArray layout ws
  read b rest hb := by
    simp only [Reader.tuple, skipBlanks_writeArray hb, Shape.readArray,
      readFields_blockRest layout h]
    simp [bind, Except.bind, hx, pure, Except.pure]

/-! ## Whole texts -/

/-- A text that is written for a value and nothing else is parsed as this value. -/
theorem Reads.parse {reader : Reader α} {w : List Char} {x : α} (h : Reads reader w x) :
    reader.parse (String.ofList w) = .ok x := by
  have hr := h.read_append []
  rw [List.append_nil] at hr
  simp [Reader.parse, hr, skipBlanks]

end TapeMachine.Json
