import Mathlib
import TapeMachine.Proofs.Json.Decoding
/-!
# Objects and records as functions of values

The readers of objects and records see the members of the value that a text spells, in the order of
the text: `decodes_entries`, `decodes_record`, `decodes_tuple`. A record is told by its fields and
what their readers decode; `fill` and `fillInOrder` put members and elements into the slots.
-/

namespace TapeMachine.Json

open Reader (RecordField Shape readMembers readFields)

variable {α σ : Type}

/-! ## Moving on -/

/-- Where the reading of the members `ms` goes on. -/
inductive NextMember : List Value.Member → Except Fault (Next String) → List Char → Prop
  | done {rest : List Char} : NextMember [] (.ok (.done rest)) rest
  | nameless {v : Value} {ms : List Value.Member} {fault : Fault} {rest : List Char} :
      NextMember ((none, v) :: ms) (.error fault) rest
  | more {name : String} {v : Value} {ms : List Value.Member} {s t u rest : List Char} :
      readColon s = .ok t → Spells v t u → SpellsMembers false ms u rest →
      NextMember ((some name, v) :: ms) (.ok (.more name s)) rest

theorem readColon_of_blanks {s rest : List Char} (h : Blanks s (':' :: rest)) :
    readColon s = .ok rest := by
  rw [readColon, h.skipBlanks_cons rfl]
  rfl

theorem SpellsMember.step {m : Value.Member} {ms : List Value.Member} {s t u rest : List Char}
    (h : SpellsMember m s t) (hs : Json.skipBlanks s = '"' :: u)
    (hms : SpellsMembers false ms t rest) : NextMember (m :: ms) (readName u) rest := by
  obtain @⟨cs, v, _, _, _, _, _, hq, hcs, hc, hv⟩ := h
  rw [hq.skipBlanks_cons rfl] at hs
  cases hs
  have hname := hcs.readString []
  cases cs with
  | none =>
    obtain ⟨fault, hf⟩ := toOption_eq_none hname
    rw [readName, hf]
    exact .nameless
  | some cs =>
    rw [readName, toOption_eq_some_iff.1 hname]
    exact .more (readColon_of_blanks hc) hv hms

theorem SpellsMember.skipBlanks {m : Value.Member} {s t : List Char} (h : SpellsMember m s t) :
    ∃ u, Json.skipBlanks s = '"' :: u := by
  obtain ⟨hq, -, -, -⟩ := h
  exact ⟨_, hq.skipBlanks_cons rfl⟩

theorem SpellsMembers.step {first : Bool} {ms : List Value.Member} {s rest : List Char}
    (h : SpellsMembers first ms s rest) : NextMember ms (nextName first s) rest := by
  cases h with
  | close hs =>
    rw [nextName_close (hs.skipBlanks_cons rfl)]
    exact .done
  | first hm hms =>
    obtain ⟨u, hu⟩ := hm.skipBlanks
    rw [nextName_first hu]
    exact hm.step hu hms
  | next hs hm hms =>
    obtain ⟨u, hu⟩ := hm.skipBlanks
    rw [nextName_comma (hs.skipBlanks_cons rfl) hu]
    exact hm.step hu hms

/-! ## Entries -/

/-- What `decode` makes of a member, which also needs a name. -/
def Value.Member.entry? (decode : Value → Option α) (m : Value.Member) : Option (String × α) := do
  return (← m.1, ← decode m.2)

theorem readEntries_fault {value : Reader α} {first : Bool} {done : List (String × α)}
    {name : String} {s r t : List Char} {fault : Fault}
    (h : nextName first s = .ok (.more name r)) (hc : readColon r = .ok t)
    (hx : value.read t = .error fault) :
    Reader.readEntries value first done s = .error fault := by
  have hv : (readColon r >>= value.read) = .error fault := by
    rw [hc]
    exact hx
  rw [Reader.readEntries]
  split <;> simp_all
  split <;> simp_all

theorem readEntries_nameless {value : Reader α} {first : Bool} {done : List (String × α)}
    {s : List Char} {fault : Fault} (h : nextName first s = .error fault) :
    Reader.readEntries value first done s = .error fault := by
  rw [Reader.readEntries]
  split <;> simp_all

theorem readEntries_of_spells {value : Reader α} {decode : Value → Option α}
    (h : Decodes value decode) {first : Bool} {ms : List Value.Member} {s rest : List Char}
    (hs : SpellsMembers first ms s rest) (done : List (String × α)) :
    (Reader.readEntries value first done s).toOption =
      (ms.mapM (Value.Member.entry? decode)).map fun xs => (done.reverse ++ xs, rest) := by
  induction ms generalizing first s done with
  | nil =>
    have hstep := hs.step
    generalize hn : nextName first s = next at hstep
    cases hstep
    rw [readEntries_done hn]
    simp [Except.toOption]
  | cons m ms ih =>
    have hstep := hs.step
    generalize hn : nextName first s = next at hstep
    cases hstep with
    | nameless =>
      rw [readEntries_nameless hn]
      rfl
    | @more name v _ s t u _ hc hv hms =>
      have hx := h hv
      cases hd : decode v with
      | none =>
        rw [hd] at hx
        obtain ⟨fault, hf⟩ := toOption_eq_none hx
        rw [readEntries_fault hn hc hf, List.mapM_cons, Value.Member.entry?, hd]
        rfl
      | some x =>
        rw [hd] at hx
        rw [readEntries_more hn (by rw [hc]; exact toOption_eq_some_iff.1 hx), ih hms,
          List.mapM_cons, Value.Member.entry?, hd]
        cases ms.mapM (Value.Member.entry? decode) <;> simp

theorem decodes_entries (expected : String) {value : Reader α} {decode : Value → Option α}
    (h : Decodes value decode) :
    Decodes (.entries expected value) fun v =>
      v.members? >>= List.mapM (Value.Member.entry? decode) := by
  intro v s rest hs
  have hv := hs.bare
  simp only [Reader.entries]
  generalize Json.skipBlanks s = b at hv ⊢
  cases hv with
  | object hms => exact readEntries_of_spells h hms []
  | boolean hc | number hc =>
    split
    · simp_all
    · rfl
  | null | string _ | array _ => rfl

/-! ## Names out of a list -/

/-- What a name out of a list stands for, alone or in an object of its own whose value is null. -/
def Value.variant? (variants : List (String × α)) : Value → Option α
  | string text => text >>= (variants.lookup ·)
  | object [(name, null)] => name >>= (variants.lookup ·)
  | _ => none

theorem readVariant_of_chars (variants : List (String × α)) {cs : Option (List Char)}
    {s rest : List Char} (h : Chars cs s rest) :
    (Reader.readVariant variants s).toOption =
      (cs.map String.ofList >>= (variants.lookup ·)).map (·, rest) := by
  simp only [Reader.readVariant, toOption_bind, h.readString]
  cases cs with
  | none => rfl
  | some cs =>
    simp only [Option.map_some, Option.bind_eq_bind, Option.bind_some, List.reverse_nil,
      List.nil_append]
    cases variants.lookup (String.ofList cs) <;> rfl

theorem Spells.readNull {v : Value} {s rest : List Char} (h : Spells v s rest) :
    v = .null ∧ Reader.readNull s = .ok rest ∨
      v ≠ .null ∧ ∃ fault, Reader.readNull s = .error fault := by
  have hv := h.bare
  simp only [Reader.readNull]
  generalize Json.skipBlanks s = b at hv ⊢
  cases hv with
  | null => exact .inl ⟨rfl, rfl⟩
  | boolean hc | number hc =>
    refine .inr ⟨by simp, ?_⟩
    split
    · simp_all
    · exact ⟨_, rfl⟩
  | string _ | array _ | object _ => exact .inr ⟨by simp, _, rfl⟩

theorem SpellsMembers.closeSingle {ms : List Value.Member} {s rest : List Char}
    (h : SpellsMembers false ms s rest) : ms = [] ∧ Reader.closeSingle s = .ok rest ∨
      ms ≠ [] ∧ ∃ fault, Reader.closeSingle s = .error fault := by
  cases h with
  | close hs =>
    refine .inl ⟨rfl, ?_⟩
    rw [Reader.closeSingle, hs.skipBlanks_cons rfl]
    rfl
  | next hs _ _ =>
    refine .inr ⟨nofun, ?_⟩
    rw [Reader.closeSingle, hs.skipBlanks_cons rfl]
    exact ⟨_, rfl⟩

theorem Value.variant?_eq_none (variants : List (String × α)) {name : Option String} {v : Value}
    {ms : List Value.Member} (h : v ≠ .null ∨ ms ≠ []) :
    (Value.object ((name, v) :: ms)).variant? variants = none := by
  cases ms with
  | cons m ms => cases v <;> rfl
  | nil =>
    cases v with
    | null => simp at h
    | _ => rfl

theorem readWrapped_of_spells (variants : List (String × α)) {ms : List Value.Member}
    {s rest : List Char} (h : SpellsMembers true ms s rest) :
    (Reader.readWrapped variants s).toOption =
      ((Value.object ms).variant? variants).map (·, rest) := by
  cases h with
  | close hs =>
    rw [Reader.readWrapped, hs.skipBlanks_cons rfl]
    rfl
  | first hm hms =>
    obtain @⟨cs, v, _, t, u, w, _, hq, hcs, hc, hv⟩ := hm
    have hname := readVariant_of_chars variants hcs
    rw [Reader.readWrapped, hq.skipBlanks_cons rfl]
    simp only [toOption_bind, hname]
    rcases hv.readNull with ⟨rfl, hnull⟩ | ⟨hne, fault, hnull⟩
    · rcases hms.closeSingle with ⟨rfl, hclose⟩ | ⟨hne, fault, hclose⟩
      · rw [Value.variant?]
        cases cs.map String.ofList >>= (variants.lookup ·) with
        | none => rfl
        | some x => simp [readColon_of_blanks hc, hnull, hclose, Except.toOption, pure, Except.pure]
      · rw [Value.variant?_eq_none variants (.inr hne)]
        cases cs.map String.ofList >>= (variants.lookup ·) with
        | none => rfl
        | some x => simp [readColon_of_blanks hc, hnull, hclose, Except.toOption, pure, Except.pure]
    · rw [Value.variant?_eq_none variants (.inl hne)]
      cases cs.map String.ofList >>= (variants.lookup ·) with
      | none => rfl
      | some x => simp [readColon_of_blanks hc, hnull, Except.toOption]

theorem decodes_variant (variants : List (String × α)) :
    Decodes (.variant variants) (Value.variant? variants) := by
  intro v s rest hs
  have hv := hs.bare
  simp only [Reader.variant]
  generalize Json.skipBlanks s = b at hv ⊢
  cases hv with
  | string hcs => exact readVariant_of_chars variants hcs
  | object hms => exact readWrapped_of_spells variants hms
  | boolean hc | number hc =>
    split
    · rfl
    · simp_all
    · simp_all
    · rfl
  | null | array _ => rfl

/-! ## Records -/

/-- A field of a record with what its reader decodes. -/
structure DecodedField (σ : Type) where
  field : RecordField σ
  decode : Value → Option (σ → σ)
  decodes : Decodes field.value decode

/-- The field of a slot. -/
def DecodedField.ofSlot (name : String) (get : σ → Option α) (set : Option α → σ → σ)
    {value : Reader α} {decode : Value → Option α} (h : Decodes value decode) : DecodedField σ where
  field := .ofSlot name get set value
  decode v := (decode v).map fun x => set (some x)
  decodes := h.map _

/-- Puts members into the slots. Each needs a name, but not one of a field. -/
def fill (parts : List (DecodedField σ)) : σ → List Value.Member → Option σ
  | slots, [] => some slots
  | _, (none, _) :: _ => none
  | slots, (some name, v) :: ms =>
    match parts.find? (·.field.name = name) with
    | none => fill parts slots ms
    | some part =>
      if part.field.isSet slots then none else do fill parts ((← part.decode v) slots) ms

/-- Puts elements into the slots of the fields in their order. -/
def fillInOrder : List (DecodedField σ) → σ → List Value → Option σ
  | _, slots, [] => some slots
  | [], _, _ :: _ => none
  | part :: parts, slots, v :: vs => do fillInOrder parts ((← part.decode v) slots) vs

@[simp] theorem fillInOrder_nil (parts : List (DecodedField σ)) (slots : σ) :
    fillInOrder parts slots [] = some slots := by
  cases parts <;> rfl

@[simp] theorem fillInOrder_surplus (slots : σ) (v : Value) (vs : List Value) :
    fillInOrder [] slots (v :: vs) = none := rfl

theorem fillInOrder_ofSlot {name : String} {get : σ → Option α} {set : Option α → σ → σ}
    {value : Reader α} {decode : Value → Option α} (h : Decodes value decode)
    (parts : List (DecodedField σ)) (slots : σ) (v : Value) (vs : List Value) :
    fillInOrder (.ofSlot name get set h :: parts) slots (v :: vs) =
      decode v >>= fun x => fillInOrder parts (set (some x) slots) vs := by
  rw [fillInOrder]
  cases hd : decode v <;> simp [DecodedField.ofSlot, hd]

/-- A member for a slot fills it if it is still empty. -/
theorem fill_ofSlot (parts : List (DecodedField σ)) {name : String} {get : σ → Option α}
    {set : Option α → σ → σ} {value : Reader α} {decode : Value → Option α}
    {h : Decodes value decode}
    (hf : parts.find? (·.field.name = name) = some (.ofSlot name get set h)) {slots filled : σ}
    {v : Value} {ms : List Value.Member} :
    fill parts slots ((some name, v) :: ms) = some filled ↔
      get slots = none ∧
        ∃ x, decode v = some x ∧ fill parts (set (some x) slots) ms = some filled := by
  rw [fill, hf]
  cases hg : get slots with
  | none => cases hd : decode v <;> simp [DecodedField.ofSlot, RecordField.ofSlot, hg, hd]
  | some x => simp [DecodedField.ofSlot, RecordField.ofSlot, hg]

section ReadMembers

variable {fields : List (RecordField σ)} {first : Bool} {slots : σ} {name : String}
  {field : RecordField σ} {fault : Fault} {s r t : List Char}

theorem readMembers_nameless (h : nextName first s = .error fault) :
    readMembers fields first slots s = .error fault := by
  rw [readMembers]
  split <;> simp_all

theorem readMembers_unknown (h : nextName first s = .ok (.more name r))
    (hf : fields.find? (·.name = name) = none) (hx : (readColon r >>= skipValue) = .ok t) :
    readMembers fields first slots s = readMembers fields false slots t := by
  rw [readMembers]
  split
  · simp_all
  · simp_all
  · rename_i hn
    cases h.symm.trans hn
    rw [hf]
    dsimp only
    split <;> simp_all

theorem readMembers_repeated (h : nextName first s = .ok (.more name r))
    (hf : fields.find? (·.name = name) = some field) (hs : field.isSet slots) :
    ∃ fault, readMembers fields first slots s = .error fault := by
  refine ⟨.here (.duplicateField name) (Reader.pastRepeated r), ?_⟩
  rw [readMembers]
  split <;> simp_all

theorem readMembers_fault (h : nextName first s = .ok (.more name r))
    (hf : fields.find? (·.name = name) = some field) (hs : field.isSet slots = false)
    (hx : (readColon r >>= field.value.read) = .error fault) :
    readMembers fields first slots s = .error fault := by
  rw [readMembers]
  split <;> simp_all
  split <;> simp_all

end ReadMembers

theorem readMembers_of_spells (parts : List (DecodedField σ)) {first : Bool}
    {ms : List Value.Member} {s rest : List Char} (hs : SpellsMembers first ms s rest) (slots : σ) :
    (readMembers (parts.map (·.field)) first slots s).toOption =
      (fill parts slots ms).map (·, rest) := by
  induction ms generalizing first s slots with
  | nil =>
    have hstep := hs.step
    generalize hn : nextName first s = next at hstep
    cases hstep
    rw [readMembers_done hn]
    rfl
  | cons m ms ih =>
    have hstep := hs.step
    generalize hn : nextName first s = next at hstep
    cases hstep with
    | nameless =>
      rw [readMembers_nameless hn]
      rfl
    | @more name v _ s t u _ hc hv hms =>
      have hfind : (parts.map (·.field)).find? (·.name = name) =
          (parts.find? (·.field.name = name)).map (·.field) := List.find?_map ..
      cases hp : parts.find? (·.field.name = name) with
      | none =>
        rw [hp] at hfind
        have hskip : (readColon s >>= skipValue) = .ok u := by
          rw [hc]
          exact hv.skipValue hms.ends
        rw [readMembers_unknown hn hfind hskip, ih hms, fill, hp]
      | some part =>
        rw [hp] at hfind
        cases hset : part.field.isSet slots with
        | true =>
          obtain ⟨fault, hf⟩ := readMembers_repeated hn hfind hset
          rw [hf, fill, hp]
          simp [hset, Except.toOption]
        | false =>
          have hx := part.decodes hv
          cases hd : part.decode v with
          | none =>
            rw [hd] at hx
            obtain ⟨fault, hf⟩ := toOption_eq_none hx
            have hvalue : (readColon s >>= part.field.value.read) = .error fault := by
              rw [hc]
              exact hf
            rw [readMembers_fault hn hfind hset hvalue, fill, hp]
            simp [hset, hd, Except.toOption]
          | some update =>
            rw [hd] at hx
            have hvalue : (readColon s >>= part.field.value.read) = .ok (update, u) := by
              rw [hc]
              exact toOption_eq_some_iff.1 hx
            rw [readMembers_more hn hfind hset hvalue, ih hms, fill, hp]
            simp [hset, hd]

theorem closeArray_nil {first : Bool} {s rest : List Char} (h : SpellsElements first [] s rest) :
    closeArray s = .ok rest := by
  cases h with
  | close hs =>
    rw [closeArray, hs.skipBlanks_cons rfl]
    rfl

theorem closeArray_cons {first : Bool} {v : Value} {vs : List Value} {s rest : List Char}
    (h : SpellsElements first (v :: vs) s rest) : ∃ fault, closeArray s = .error fault := by
  cases h with
  | first hv _ =>
    have htrim := hv.skipBlanks
    obtain ⟨c, u, hu, hc⟩ := htrim
    have hne := hc.not_mem
    rw [closeArray, hu]
    split <;> simp_all
    split <;> simp_all
  | next hs hv _ =>
    obtain ⟨c, u, hu, hc⟩ := hv.skipBlanks
    have hne := hc.not_mem
    rw [closeArray, hs.skipBlanks_cons rfl]
    simp only [hu]
    split <;> simp_all

theorem readFields_of_spells (parts : List (DecodedField σ)) {first : Bool} {vs : List Value}
    {s rest : List Char} (hs : SpellsElements first vs s rest) (slots : σ) :
    (readFields (parts.map (·.field)) first slots s).toOption =
      (fillInOrder parts slots vs).map (·, rest) := by
  induction parts generalizing first vs s slots with
  | nil =>
    rw [List.map_nil, readFields]
    cases vs with
    | nil =>
      rw [closeArray_nil hs]
      rfl
    | cons v vs =>
      obtain ⟨fault, hf⟩ := closeArray_cons hs
      rw [hf]
      rfl
  | cons part parts ih =>
    have hstep := hs.step
    rw [List.map_cons, readFields]
    generalize nextElement first s = next at hstep ⊢
    cases hstep with
    | done => rfl
    | more hv hvs =>
      have hx := part.decodes hv
      rw [fillInOrder]
      cases hd : part.decode _ with
      | none =>
        rw [hd] at hx
        obtain ⟨fault, hf⟩ := toOption_eq_none hx
        simp only [hf]
        rfl
      | some update =>
        rw [hd] at hx
        simp only [toOption_eq_some_iff.1 hx]
        exact ih hvs (update slots)

/-- The slots that the value of a record fills. -/
def Value.slots? (parts : List (DecodedField σ)) (blank : σ) : Value → Option σ
  | object ms => fill parts blank ms
  | array vs => fillInOrder parts blank vs
  | _ => none

section Record

variable {shape : Shape σ α} {parts : List (DecodedField σ)}

theorem readObject_of_spells (hparts : shape.fields = parts.map (·.field)) {ms : List Value.Member}
    {s rest : List Char} (h : SpellsMembers true ms s rest) :
    (shape.readObject s).toOption = ((Value.object ms).slots? parts shape.blank >>=
      fun slots => (shape.complete slots).toOption).map (·, rest) := by
  rw [Shape.readObject, hparts, toOption_bind, readMembers_of_spells parts h, Value.slots?]
  cases fill parts shape.blank ms with
  | none => rfl
  | some slots =>
    simp only [Option.map_some, Option.bind_eq_bind, Option.bind_some]
    cases shape.complete slots <;> rfl

theorem readArray_of_spells (hparts : shape.fields = parts.map (·.field)) {vs : List Value}
    {s rest : List Char} (h : SpellsElements true vs s rest) :
    (shape.readArray s).toOption = ((Value.array vs).slots? parts shape.blank >>=
      fun slots => (shape.complete slots).toOption).map (·, rest) := by
  rw [Shape.readArray, hparts, toOption_bind, readFields_of_spells parts h, Value.slots?]
  cases fillInOrder parts shape.blank vs with
  | none => rfl
  | some slots =>
    simp only [Option.map_some, Option.bind_eq_bind, Option.bind_some]
    cases shape.complete slots <;> rfl

theorem decodes_record (parts : List (DecodedField σ))
    (hparts : shape.fields = parts.map (·.field)) :
    Decodes (.record shape) fun v =>
      v.slots? parts shape.blank >>= fun slots => (shape.complete slots).toOption := by
  intro v s rest hs
  have hv := hs.bare
  simp only [Reader.record]
  generalize Json.skipBlanks s = b at hv ⊢
  cases hv with
  | object hms => exact readObject_of_spells hparts hms
  | array hvs => exact readArray_of_spells hparts hvs
  | boolean hc | number hc =>
    split
    · simp_all
    · simp_all
    · rfl
  | null | string _ => rfl

theorem decodes_tuple (parts : List (DecodedField σ))
    (hparts : shape.fields = parts.map (·.field)) :
    Decodes (.tuple shape) fun v => v.elements? >>= fun vs =>
      fillInOrder parts shape.blank vs >>= fun slots => (shape.complete slots).toOption := by
  intro v s rest hs
  have hv := hs.bare
  simp only [Reader.tuple]
  generalize Json.skipBlanks s = b at hv ⊢
  cases hv with
  | array hvs => exact readArray_of_spells hparts hvs
  | boolean hc | number hc =>
    split
    · simp_all
    · rfl
  | null | string _ | object _ => rfl

end Record

/-! ## Whole texts -/

/-- What is parsed of a text is what is decoded of the value that it spells. -/
theorem Decodes.parse {reader : Reader α} {decode : Value → Option α} (h : Decodes reader decode)
    {v : Value} {text : String} (hv : v.IsSpelled text) :
    (reader.parse text).toOption = decode v := by
  obtain ⟨rest, hs, hrest⟩ := hv
  have hr := h hs
  have hblank : skipBlanks rest = [] := hrest.skipBlanks
  cases hd : decode v with
  | none =>
    rw [hd] at hr
    obtain ⟨fault, hf⟩ := toOption_eq_none hr
    rw [Reader.parse, hf]
    rfl
  | some x =>
    rw [hd] at hr
    simp only [Reader.parse, toOption_eq_some_iff.1 hr, hblank]
    rfl

end TapeMachine.Json
