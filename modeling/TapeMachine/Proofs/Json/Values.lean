import Mathlib
import TapeMachine.Json.Reader.Container
import TapeMachine.Json.Reader.Record
import TapeMachine.Proofs.Json.Strings
/-!
# Written values read back

`Reads reader w x`: the reader takes exactly the text `w` for `x`, whatever blanks stand before it
and whatever comes after it. The containers of such texts are texts of this kind again, in every
layout: `reads_list`, `reads_entries`, `reads_tuple`, `reads_record`.
-/

namespace TapeMachine.Json

variable {α β : Type}

/-! ## Blanks -/

/-- Nothing but blanks. -/
def Blank (b : List Char) : Prop := ∀ c ∈ b, isBlank c = true

theorem blank_nil : Blank [] := by simp [Blank]

theorem blank_lineBreak (layout : Layout) : Blank layout.lineBreak := by
  intro c hc
  cases layout with
  | compact => cases hc
  | indented depth =>
    rcases List.mem_cons.1 hc with rfl | hc
    · rfl
    · rw [List.eq_of_mem_replicate hc]
      rfl

theorem skipBlanks_append {b : List Char} (hb : Blank b) (s : List Char) :
    skipBlanks (b ++ s) = skipBlanks s := by
  induction b with
  | nil => rfl
  | cons c b ih =>
    rw [List.cons_append, skipBlanks, List.dropWhile_cons_of_pos (hb c List.mem_cons_self)]
    exact ih fun d hd => hb d (List.mem_cons_of_mem _ hd)

theorem skipBlanks_cons {c : Char} (hc : isBlank c = false) (s : List Char) :
    skipBlanks (c :: s) = c :: s :=
  List.dropWhile_cons_of_neg (by simp [hc])

theorem skipBlanks_blank_cons {b : List Char} {c : Char} (hb : Blank b) (hc : isBlank c = false)
    (s : List Char) : skipBlanks (b ++ c :: s) = c :: s := by
  rw [skipBlanks_append hb, skipBlanks_cons hc]

/-! ## Values -/

/-- How a value that is written begins. -/
def Opens (w : List Char) : Prop := ∃ c s, w = c :: s ∧ (c = '"' ∨ c = '[' ∨ c = '{')

theorem Opens.skipBlanks {w : List Char} (h : Opens w) {b : List Char} (hb : Blank b)
    (rest : List Char) : skipBlanks (b ++ (w ++ rest)) = w ++ rest := by
  obtain ⟨c, s, rfl, hc⟩ := h
  exact skipBlanks_blank_cons hb (by rcases hc with rfl | rfl | rfl <;> rfl) _

/-- The text `w` is read as `x`. -/
structure Reads (reader : Reader α) (w : List Char) (x : α) : Prop where
  opens : Opens w
  read : ∀ b rest, Blank b → reader.read (b ++ (w ++ rest)) = .ok (x, rest)

theorem Reads.read_append {reader : Reader α} {w : List Char} {x : α} (h : Reads reader w x)
    (rest : List Char) : reader.read (w ++ rest) = .ok (x, rest) :=
  h.read [] rest blank_nil

theorem Reads.map {reader : Reader α} {w : List Char} {x : α} (h : Reads reader w x) (f : α → β) :
    Reads (reader.map f) w (f x) where
  opens := h.opens
  read b rest hb := by simp only [Reader.map, h.read b rest hb]

theorem skipBlanks_writeString {b : List Char} (hb : Blank b) (text : String) (rest : List Char) :
    skipBlanks (b ++ (writeString text ++ rest)) =
      '"' :: (text.toList.flatMap writeChar ++ '"' :: rest) := by
  rw [show writeString text ++ rest = '"' :: (text.toList.flatMap writeChar ++ '"' :: rest) by
    simp [writeString], skipBlanks_blank_cons hb rfl]

theorem readString_writeString (text : String) (rest : List Char) :
    readString [] (text.toList.flatMap writeChar ++ '"' :: rest) = .ok (text, rest) := by
  rw [readString_writeChars, List.reverse_nil, List.nil_append, String.ofList_toList]

theorem opens_writeString (text : String) : Opens (writeString text) := ⟨_, _, rfl, .inl rfl⟩

/-- A written string is read, and then decoded. -/
theorem reads_text {expected : String} {decode : String → Except Cause α} {text : String} {x : α}
    (h : decode text = .ok x) : Reads (.text expected decode) (writeString text) x where
  opens := opens_writeString text
  read b rest hb := by
    simp only [Reader.text, skipBlanks_writeString hb, readString_writeString]
    simp [bind, Except.bind, h, pure, Except.pure]

theorem reads_string (s : String) : Reads .string (writeString s) s := reads_text rfl

theorem reads_variant {variants : List (String × α)} {name : String} {x : α}
    (h : variants.lookup name = some x) : Reads (.variant variants) (writeString name) x where
  opens := opens_writeString name
  read b rest hb := by
    simp only [Reader.variant, skipBlanks_writeString hb, Reader.readVariant,
      readString_writeString]
    simp [bind, Except.bind, h, pure, Except.pure]

/-- A value that may be null is read if it is there. -/
theorem Reads.nullable {value : Reader α} {w : List Char} {x : α} (h : Reads value w x) :
    Reads (.nullable value) w (some x) where
  opens := h.opens
  read b rest hb := by
    have hv := h.read_append rest
    have hs := h.opens.skipBlanks hb rest
    obtain ⟨c, s, rfl, hc⟩ := h.opens
    -- nothing that is written begins like a null
    have hn : c ≠ 'n' := by rcases hc with rfl | rfl | rfl <;> decide
    simp only [Reader.nullable, hs]
    split
    · simp_all
    · simp_all [bind, Except.bind, pure, Except.pure]

/-! ## Blocks -/

/-- What is left of a block before its elements `ws`. -/
def blockRest (layout : Layout) (closing : Char) (first : Bool) : List (List Char) → List Char
  | [] => (if first then [] else layout.lineBreak) ++ [closing]
  | w :: ws =>
    (if first then [] else [',']) ++ layout.inner.lineBreak ++ w ++ blockRest layout closing false ws

theorem intercalate_lineBreak (layout : Layout) (closing : Char) (w : List Char)
    (ws : List (List Char)) :
    [','].intercalate ((w :: ws).map (layout.inner.lineBreak ++ ·)) ++ layout.lineBreak ++ [closing] =
      layout.inner.lineBreak ++ w ++ blockRest layout closing false ws := by
  induction ws generalizing w with
  | nil => simp [blockRest]
  | cons v ws ih =>
    rw [List.map_cons, List.map_cons, List.intercalate_cons_cons, ← List.map_cons, blockRest]
    simpa using ih v

theorem writeBlock_eq (layout : Layout) (opening closing : Char) (ws : List (List Char)) :
    writeBlock layout opening closing ws = opening :: blockRest layout closing true ws := by
  cases ws with
  | nil => simp [writeBlock, blockRest]
  | cons w ws =>
    rw [writeBlock, if_neg (by simp), List.cons_append, List.cons_append, intercalate_lineBreak]
    simp [blockRest]

theorem skipBlanks_writeBlock {b : List Char} (hb : Blank b) (layout : Layout) {opening : Char}
    (ho : isBlank opening = false) (closing : Char) (ws : List (List Char)) (rest : List Char) :
    skipBlanks (b ++ (writeBlock layout opening closing ws ++ rest)) =
      opening :: (blockRest layout closing true ws ++ rest) := by
  rw [writeBlock_eq]
  exact skipBlanks_blank_cons hb ho _

theorem skipBlanks_blockRest_nil (layout : Layout) {closing : Char} (hc : isBlank closing = false)
    (first : Bool) (rest : List Char) :
    skipBlanks (blockRest layout closing first [] ++ rest) = closing :: rest := by
  have hb : Blank (if first then [] else layout.lineBreak) := by
    cases first
    · exact blank_lineBreak layout
    · exact blank_nil
  rw [blockRest, List.append_assoc]
  exact skipBlanks_blank_cons hb hc rest

/-! ## Arrays -/

theorem nextElement_close {first : Bool} {s rest : List Char} (h : skipBlanks s = ']' :: rest) :
    nextElement first s = .ok (.done rest) := by
  rw [nextElement, h]
  rfl

theorem nextElement_first {s rest : List Char} {c : Char} (h : skipBlanks s = c :: rest)
    (hc : c ≠ ']') : nextElement true s = .ok (.more () (c :: rest)) := by
  rw [nextElement, h]
  split <;> simp_all

theorem nextElement_comma {s t rest : List Char} {c : Char} (h : skipBlanks s = ',' :: t)
    (ht : skipBlanks t = c :: rest) (hc : c ≠ ']') :
    nextElement false s = .ok (.more () (c :: rest)) := by
  rw [nextElement, h]
  simp only [Char.reduceEq, imp_self, Bool.false_eq_true, if_false, ne_eq, not_true_eq_false, ht]
  split <;> simp_all

theorem nextElement_cons (layout : Layout) (first : Bool) {w : List Char} (hw : Opens w)
    (ws : List (List Char)) (rest : List Char) :
    nextElement first (blockRest layout ']' first (w :: ws) ++ rest) =
      .ok (.more () (w ++ (blockRest layout ']' false ws ++ rest))) := by
  have hs := hw.skipBlanks (blank_lineBreak layout.inner) (blockRest layout ']' false ws ++ rest)
  obtain ⟨c, s, rfl, hc⟩ := hw
  have hne : c ≠ ']' := by rcases hc with rfl | rfl | rfl <;> decide
  cases first with
  | true =>
    refine nextElement_first ?_ hne
    simpa [blockRest] using hs
  | false =>
    refine nextElement_comma ?_ hs hne
    simpa [blockRest] using skipBlanks_cons (c := ',') (by decide) _

theorem readElements_done {element : Reader α} {first : Bool} {done : List α} {s rest : List Char}
    (h : nextElement first s = .ok (.done rest)) :
    Reader.readElements element first done s = .ok (done.reverse, rest) := by
  rw [Reader.readElements]
  split <;> simp_all

theorem readElements_more {element : Reader α} {first : Bool} {done : List α} {x : α}
    {s r rest : List Char} (h : nextElement first s = .ok (.more () r))
    (hx : element.read r = .ok (x, rest)) :
    Reader.readElements element first done s =
      Reader.readElements element false (x :: done) rest := by
  rw [Reader.readElements]
  split <;> simp_all
  split <;> simp_all

theorem readElements_blockRest {element : Reader α} (layout : Layout) {ws : List (List Char)}
    {xs : List α} (h : List.Forall₂ (Reads element) ws xs) (first : Bool) (done : List α)
    (rest : List Char) :
    Reader.readElements element first done (blockRest layout ']' first ws ++ rest) =
      .ok (done.reverse ++ xs, rest) := by
  induction h generalizing first done with
  | nil =>
    have hs : skipBlanks (blockRest layout ']' first [] ++ rest) = ']' :: rest :=
      skipBlanks_blockRest_nil layout (by decide) first rest
    rw [readElements_done (nextElement_close hs), List.append_nil]
  | @cons w x ws xs hx _ ih =>
    rw [readElements_more (nextElement_cons layout first hx.opens ws rest)
      (hx.read_append _), ih, List.reverse_cons, List.append_assoc]
    rfl

theorem opens_writeArray (layout : Layout) (ws : List (List Char)) :
    Opens (writeArray layout ws) :=
  ⟨'[', _, writeBlock_eq layout '[' ']' ws, .inr (.inl rfl)⟩

theorem skipBlanks_writeArray {b : List Char} (hb : Blank b) (layout : Layout)
    (ws : List (List Char)) (rest : List Char) :
    skipBlanks (b ++ (writeArray layout ws ++ rest)) =
      '[' :: (blockRest layout ']' true ws ++ rest) :=
  skipBlanks_writeBlock hb layout rfl ']' ws rest

theorem reads_list {element : Reader α} (layout : Layout) {ws : List (List Char)} {xs : List α}
    (h : List.Forall₂ (Reads element) ws xs) : Reads (.list element) (writeArray layout ws) xs where
  opens := opens_writeArray layout ws
  read b rest hb := by
    simp only [Reader.list, skipBlanks_writeArray hb]
    exact readElements_blockRest layout h true [] rest

/-! ## Objects -/

/-- A member whose value has been written. -/
def memberText (layout : Layout) (member : String × List Char) : List Char :=
  writeString member.1 ++ layout.colon ++ member.2

theorem nextName_close {first : Bool} {s rest : List Char} (h : skipBlanks s = '}' :: rest) :
    nextName first s = .ok (.done rest) := by
  simp [nextName, h]

theorem nextName_first {s rest : List Char} (h : skipBlanks s = '"' :: rest) :
    nextName true s = readName rest := by
  simp [nextName, h]

theorem nextName_comma {s t rest : List Char} (h : skipBlanks s = ',' :: t)
    (ht : skipBlanks t = '"' :: rest) : nextName false s = readName rest := by
  simp [nextName, h, ht]

theorem readName_writeString (name : String) (rest : List Char) :
    readName (name.toList.flatMap writeChar ++ '"' :: rest) = .ok (.more name rest) := by
  rw [readName, readString_writeString]
  rfl

theorem nextName_cons (layout : Layout) (first : Bool) (member : String × List Char)
    (ws : List (List Char)) (rest : List Char) :
    nextName first (blockRest layout '}' first (memberText layout member :: ws) ++ rest) =
      .ok (.more member.1
        (layout.colon ++ (member.2 ++ (blockRest layout '}' false ws ++ rest)))) := by
  have hs := skipBlanks_writeString (blank_lineBreak layout.inner) member.1
    (layout.colon ++ (member.2 ++ (blockRest layout '}' false ws ++ rest)))
  rw [← readName_writeString]
  cases first with
  | true =>
    refine nextName_first ?_
    simpa [blockRest, memberText] using hs
  | false =>
    refine nextName_comma ?_ hs
    simpa [blockRest, memberText] using skipBlanks_cons (c := ',') (by decide) _

/-- The colon after a name is passed, and the value after it is read. -/
theorem readColon_value {value : Reader α} {w : List Char} {x : α} (h : Reads value w x)
    (layout : Layout) (rest : List Char) :
    (readColon (layout.colon ++ (w ++ rest)) >>= value.read) = .ok (x, rest) := by
  cases layout with
  | compact =>
    have hs : skipBlanks (':' :: (w ++ rest)) = ':' :: (w ++ rest) :=
      skipBlanks_cons (by decide) _
    simpa [readColon, Layout.colon, hs, bind, Except.bind] using h.read_append rest
  | indented depth =>
    have hs : skipBlanks (':' :: ' ' :: (w ++ rest)) = ':' :: ' ' :: (w ++ rest) :=
      skipBlanks_cons (by decide) _
    have hb : Blank [' '] := by simp [Blank, isBlank]
    simpa [readColon, Layout.colon, hs, bind, Except.bind] using h.read [' '] rest hb

theorem readEntries_done {value : Reader α} {first : Bool} {done : List (String × α)}
    {s rest : List Char} (h : nextName first s = .ok (.done rest)) :
    Reader.readEntries value first done s = .ok (done.reverse, rest) := by
  rw [Reader.readEntries]
  split <;> simp_all

theorem readEntries_more {value : Reader α} {first : Bool} {done : List (String × α)}
    {name : String} {x : α} {s r rest : List Char} (h : nextName first s = .ok (.more name r))
    (hx : (readColon r >>= value.read) = .ok (x, rest)) :
    Reader.readEntries value first done s =
      Reader.readEntries value false ((name, x) :: done) rest := by
  rw [Reader.readEntries]
  split <;> simp_all
  split <;> simp_all

theorem readEntries_blockRest {value : Reader α} (layout : Layout)
    {members : List (String × List Char)} {entries : List (String × α)}
    (h : List.Forall₂ (fun member entry => member.1 = entry.1 ∧ Reads value member.2 entry.2)
      members entries) (first : Bool) (done : List (String × α)) (rest : List Char) :
    Reader.readEntries value first done
        (blockRest layout '}' first (members.map (memberText layout)) ++ rest) =
      .ok (done.reverse ++ entries, rest) := by
  induction h generalizing first done with
  | nil =>
    have hs : skipBlanks (blockRest layout '}' first [] ++ rest) = '}' :: rest :=
      skipBlanks_blockRest_nil layout (by decide) first rest
    rw [List.map_nil, readEntries_done (nextName_close hs), List.append_nil]
  | @cons member entry members entries hx _ ih =>
    rw [List.map_cons, readEntries_more (nextName_cons layout first member _ rest)
      (readColon_value hx.2 layout _), ih, List.reverse_cons, List.append_assoc, hx.1]
    rfl

theorem opens_writeObject (layout : Layout) (members : List (String × List Char)) :
    Opens (writeObject layout members) :=
  ⟨'{', _, writeBlock_eq layout '{' '}' _, .inr (.inr rfl)⟩

theorem skipBlanks_writeObject {b : List Char} (hb : Blank b) (layout : Layout)
    (members : List (String × List Char)) (rest : List Char) :
    skipBlanks (b ++ (writeObject layout members ++ rest)) =
      '{' :: (blockRest layout '}' true (members.map (memberText layout)) ++ rest) :=
  skipBlanks_writeBlock hb layout rfl '}' _ rest

/-- An object is read with its members in order, repeated names included. -/
theorem reads_entries {expected : String} {value : Reader α} (layout : Layout)
    {members : List (String × List Char)} {entries : List (String × α)}
    (h : List.Forall₂ (fun member entry => member.1 = entry.1 ∧ Reads value member.2 entry.2)
      members entries) :
    Reads (.entries expected value) (writeObject layout members) entries where
  opens := opens_writeObject layout members
  read b rest hb := by
    simp only [Reader.entries, skipBlanks_writeObject hb]
    exact readEntries_blockRest layout h true [] rest

end TapeMachine.Json
