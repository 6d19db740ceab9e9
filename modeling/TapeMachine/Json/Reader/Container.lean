import TapeMachine.Json.Reader
/-!
# Readers of lists, objects and names

`Reader.list` reads an array of values of one kind, `Reader.entries` an object of them, in the
order of the text and with repeated names kept. `Reader.variant` reads a name out of a fixed list.
-/
namespace TapeMachine.Json.Reader

variable {α : Type}

/-- Reads the elements of an array after those in `done`, last first. -/
def readElements (element : Reader α) (first : Bool) (done : List α) (s : List Char) :
    Except Fault (List α × List Char) :=
  match _h : nextElement first s with
  | .error fault => .error fault
  | .ok (.done rest) => .ok (done.reverse, rest)
  | .ok (.more () rest) =>
    match _h' : element.read rest with
    | .error fault => .error fault
    | .ok (x, rest) => readElements element false (x :: done) rest
termination_by s.length
decreasing_by exact Nat.lt_of_lt_of_le (element.shortens _h') (length_nextElement _h)

theorem length_readElements {element : Reader α} {first : Bool} {done xs : List α}
    {s rest : List Char} (h : readElements element first done s = .ok (xs, rest)) :
    rest.length ≤ s.length := by
  fun_induction readElements element first done s with
  | case1 => simp at h
  | case2 _ _ _ _ hn =>
    cases h
    exact length_nextElement hn
  | case3 => simp at h
  | case4 _ _ _ _ hn _ _ hr ih =>
    have := ih h
    have := element.shortens hr
    have := length_nextElement hn
    simp only [Next.rest] at this
    omega

/-- Reads an array. -/
def list (element : Reader α) : Reader (List α) where
  read s :=
    match skipBlanks s with
    | '[' :: s => readElements element true [] s
    | s => .error (mismatch "a sequence" s)
  shortens := by
    intro s rest x h
    have := length_skipBlanks_le s
    split at h
    · have := length_readElements h
      simp_all
      omega
    · simp at h

/-- Reads the members of an object after those in `done`, last first. -/
def readEntries (value : Reader α) (first : Bool) (done : List (String × α)) (s : List Char) :
    Except Fault (List (String × α) × List Char) :=
  match _h : nextName first s with
  | .error fault => .error fault
  | .ok (.done rest) => .ok (done.reverse, rest)
  | .ok (.more name rest) =>
    match _h' : readColon rest >>= value.read with
    | .error fault => .error fault
    | .ok (x, rest) => readEntries value false ((name, x) :: done) rest
termination_by s.length
decreasing_by
  obtain ⟨r, hr, hv⟩ := bind_eq_ok_iff.1 _h'
  exact Nat.lt_trans (value.shortens hv) (Nat.lt_trans (length_readColon hr) (length_nextName _h))

theorem length_readEntries {value : Reader α} {first : Bool} {done xs : List (String × α)}
    {s rest : List Char} (h : readEntries value first done s = .ok (xs, rest)) :
    rest.length ≤ s.length := by
  fun_induction readEntries value first done s with
  | case1 => simp at h
  | case2 _ _ _ _ hn =>
    cases h
    exact Nat.le_of_lt (length_nextName hn)
  | case3 => simp at h
  | case4 _ _ _ _ _ hn _ _ hv ih =>
    obtain ⟨r, hr, hv⟩ := bind_eq_ok_iff.1 hv
    have := ih h
    have := value.shortens hv
    have := length_readColon hr
    have := length_nextName hn
    simp only [Next.rest] at this
    omega

/-- Reads an object with any names. -/
def entries (expected : String) (value : Reader α) : Reader (List (String × α)) where
  read s :=
    match skipBlanks s with
    | '{' :: s => readEntries value true [] s
    | s => .error (mismatch expected s)
  shortens := by
    intro s rest x h
    have := length_skipBlanks_le s
    split at h
    · have := length_readEntries h
      simp_all
      omega
    · simp at h

/-! ## Names out of a list -/

/-- Reads a name whose opening quote has been read and gives what it stands for. -/
def readVariant (variants : List (String × α)) (s : List Char) : Except Fault (α × List Char) := do
  let (name, rest) ← readString [] s
  match variants.lookup name with
  | some x => return (x, rest)
  | none => throw (.here (.unknownVariant name (variants.map (·.1))) rest)

theorem length_readVariant {variants : List (String × α)} {s rest : List Char} {x : α}
    (h : readVariant variants s = .ok (x, rest)) : rest.length < s.length := by
  obtain ⟨⟨name, r⟩, hr, h⟩ := bind_eq_ok_iff.1 h
  have := length_readString hr
  dsimp only at h
  split at h
  · cases pure_eq_ok_iff.1 h
    exact this
  · exact absurd h throw_ne_ok

/-- Goes past a null. -/
def readNull (s : List Char) : Except Fault (List Char) :=
  match skipBlanks s with
  | 'n' :: rest => readWord ['u', 'l', 'l'] rest
  | rest => .error (mismatch "unit" rest)

theorem length_readNull {s rest : List Char} (h : readNull s = .ok rest) :
    rest.length < s.length := by
  have := length_skipBlanks_le s
  unfold readNull at h
  split at h
  · have := length_readWord h
    simp_all
    omega
  · simp at h

/-- Goes past the bracket that closes an object with a single member. -/
def closeSingle (s : List Char) : Except Fault (List Char) :=
  match skipBlanks s with
  | '}' :: rest => .ok rest
  | [] => .error (.here .endInObject [])
  | rest => .error (.here .expectedValue rest)

theorem length_closeSingle {s rest : List Char} (h : closeSingle s = .ok rest) :
    rest.length < s.length := by
  have hs := length_skipBlanks_le s
  unfold closeSingle at h
  split at h
  · rename_i hr
    cases h
    rw [hr] at hs
    exact hs
  all_goals simp at h

/-- Reads the name of a variant and a null from inside an object. -/
def readWrapped (variants : List (String × α)) (s : List Char) : Except Fault (α × List Char) := do
  match skipBlanks s with
  | '"' :: s =>
    let (x, s) ← readVariant variants s
    let s ← readColon s
    let s ← readNull s
    return (x, ← closeSingle s)
  | [] => throw (.next .endInObject [])
  | '}' :: s => throw (.next .expectedValue ('}' :: s))
  | s => throw (.next .keyNotString s)

theorem length_readWrapped {variants : List (String × α)} {s rest : List Char} {x : α}
    (h : readWrapped variants s = .ok (x, rest)) : rest.length < s.length := by
  have := length_skipBlanks_le s
  unfold readWrapped at h
  split at h
  · obtain ⟨⟨_, s₁⟩, h₁, h⟩ := bind_eq_ok_iff.1 h
    obtain ⟨s₂, h₂, h⟩ := bind_eq_ok_iff.1 h
    obtain ⟨s₃, h₃, h⟩ := bind_eq_ok_iff.1 h
    obtain ⟨s₄, h₄, h⟩ := bind_eq_ok_iff.1 h
    cases pure_eq_ok_iff.1 h
    have := length_readVariant h₁
    have := length_readColon h₂
    have := length_readNull h₃
    have := length_closeSingle h₄
    simp_all
    omega
  all_goals exact absurd h throw_ne_ok

/-- Reads a name out of a list, alone or in an object of its own whose value is null. -/
def variant (variants : List (String × α)) : Reader α where
  read s :=
    match skipBlanks s with
    | [] => .error (.next .endInValue [])
    | '"' :: s => readVariant variants s
    | '{' :: s => readWrapped variants s
    | s => .error (.next .expectedValue s)
  shortens := by
    intro s rest x h
    have := length_skipBlanks_le s
    split at h
    · simp at h
    · have := length_readVariant h
      simp_all
      omega
    · have := length_readWrapped h
      simp_all
      omega
    · simp at h

end TapeMachine.Json.Reader
