import TapeMachine.Json.Token
/-!
# Skipping a value

The value of a member that nobody asks for is checked for its grammar and dropped. The containers
around the place that is looked at are held in a list, so any depth of nesting will do.
-/
namespace TapeMachine.Json

/-- Goes past the rest of a string. -/
def skipString (s : List Char) : Except Fault (List Char) :=
  match s with
  | [] => .error (.here .endInString [])
  | '"' :: rest => .ok rest
  | '\\' :: 'u' :: rest =>
    match _h : readHex rest with
    | .error fault => .error fault
    | .ok (_, rest) => skipString rest
  | ['\\'] => .error (.here .endInString [])
  | '\\' :: c :: rest =>
    if (unescape? c).isSome then skipString rest else .error (.next .invalidEscape (c :: rest))
  | c :: rest =>
    if c < ' ' then .error (.here .controlCharacter (c :: rest)) else skipString rest
termination_by s.length
decreasing_by
  · have := length_readHex _h
    simp only [List.length_cons]
    omega
  · simp only [List.length_cons]
    omega
  · simp

/-- A container that is open. -/
inductive Frame where
  | array
  | object
  deriving DecidableEq

/-- Goes past a member's name and the colon. -/
def skipName (s : List Char) : Except Fault (List Char) := do
  match skipBlanks s with
  | [] => throw (.next .endInObject [])
  | '"' :: s =>
    let s ← skipString s
    match skipBlanks s with
    | ':' :: rest => return rest
    | [] => throw (.next .endInObject [])
    | s => throw (.next .expectedColon s)
  | s => throw (.next .keyNotString s)

/-- Goes past a scalar or an empty container, or up to the first value inside another container. -/
def enter (s : List Char) : Except Fault (Option Frame × List Char) := do
  match skipBlanks s with
  | [] => throw (.next .endInValue [])
  | 'n' :: s => return (none, ← readWord ['u', 'l', 'l'] s)
  | 't' :: s => return (none, ← readWord ['r', 'u', 'e'] s)
  | 'f' :: s => return (none, ← readWord ['a', 'l', 's', 'e'] s)
  | '-' :: s => return (none, (← readNumber .invalidNumber true s).2)
  | '"' :: s => return (none, ← skipString s)
  | '[' :: s =>
    match skipBlanks s with
    | [] => throw (.next .endInList [])
    | ']' :: rest => return (none, rest)
    | s => return (some .array, s)
  | '{' :: s =>
    match skipBlanks s with
    | [] => throw (.next .endInObject [])
    | '}' :: rest => return (none, rest)
    | s => return (some .object, ← skipName s)
  | c :: s =>
    if isDigit c then return (none, (← readNumber .invalidNumber false (c :: s)).2)
    else throw (.next .expectedValue (c :: s))

/-- Goes past what follows a value, closing containers as long as they end there. The containers
that are left stand before their next value; there are none once the outermost value is over. -/
def leave : List Frame → List Char → Except Fault (List Frame × List Char)
  | [], s => .ok ([], s)
  | .array :: outer, s =>
    match skipBlanks s with
    | [] => .error (.next .endInList [])
    | ']' :: rest => leave outer rest
    | ',' :: rest => .ok (.array :: outer, rest)
    | s => .error (.next .expectedListComma s)
  | .object :: outer, s =>
    match skipBlanks s with
    | [] => .error (.next .endInObject [])
    | '}' :: rest => leave outer rest
    | ',' :: rest => do return (.object :: outer, ← skipName rest)
    | s => .error (.next .expectedObjectComma s)

theorem length_skipString {s rest : List Char} (h : skipString s = .ok rest) :
    rest.length < s.length := by
  fun_induction skipString s with
  | case1 => simp at h
  | case2 => simp_all
  | case3 => simp_all
  | case4 s c r hr ih => have := length_readHex hr; have := ih h; simp; omega
  | case5 => simp_all
  | case6 c s _ _ ih => have := ih h; simp; omega
  | case7 => simp_all
  | case8 => simp_all
  | case9 =>
    rename_i ih
    have := ih h
    simp
    omega

theorem length_skipName {s rest : List Char} (h : skipName s = .ok rest) :
    rest.length < s.length := by
  have hs := length_skipBlanks_le s
  unfold skipName at h
  split at h
  · exact absurd h throw_ne_ok
  · rename_i r hr
    obtain ⟨r₁, h₁, h⟩ := bind_eq_ok_iff.1 h
    have := length_skipString h₁
    have := length_skipBlanks_le r₁
    split at h
    · rename_i r₂ hr₂
      cases pure_eq_ok_iff.1 h
      simp_all
      omega
    all_goals exact absurd h throw_ne_ok
  · exact absurd h throw_ne_ok

theorem length_enter {s rest : List Char} {frame : Option Frame}
    (h : enter s = .ok (frame, rest)) : rest.length < s.length := by
  have hs := length_skipBlanks_le s
  unfold enter at h
  split at h
  case h_2 | h_3 | h_4 =>
    obtain ⟨r, hr, h⟩ := bind_eq_ok_iff.1 h
    cases pure_eq_ok_iff.1 h
    have := length_readWord hr
    simp_all
    omega
  case h_5 =>
    obtain ⟨r, hr, h⟩ := bind_eq_ok_iff.1 h
    cases pure_eq_ok_iff.1 h
    have := length_readNumber hr
    simp_all
    omega
  case h_6 =>
    obtain ⟨r, hr, h⟩ := bind_eq_ok_iff.1 h
    cases pure_eq_ok_iff.1 h
    have := length_skipString hr
    simp_all
    omega
  case h_7 r hr =>
    have := length_skipBlanks_le r
    split at h
    · exact absurd h throw_ne_ok
    all_goals
      cases pure_eq_ok_iff.1 h
      simp_all
      omega
  case h_8 r hr =>
    have := length_skipBlanks_le r
    split at h
    · exact absurd h throw_ne_ok
    · cases pure_eq_ok_iff.1 h
      simp_all
      omega
    · obtain ⟨r', hr', h⟩ := bind_eq_ok_iff.1 h
      cases pure_eq_ok_iff.1 h
      have := length_skipName hr'
      simp_all
      omega
  case h_9 c r _ _ _ _ _ _ _ hr =>
    split at h
    · obtain ⟨r', hr', h⟩ := bind_eq_ok_iff.1 h
      cases pure_eq_ok_iff.1 h
      have := length_readNumber hr'
      simp_all
      omega
    · exact absurd h throw_ne_ok
  case h_1 => exact absurd h throw_ne_ok

theorem length_leave {frames inner : List Frame} {s rest : List Char}
    (h : leave frames s = .ok (inner, rest)) : rest.length ≤ s.length := by
  induction frames generalizing s with
  | nil => simp_all [leave]
  | cons frame outer ih =>
    have hs := length_skipBlanks_le s
    cases frame with
    | array =>
      rw [leave] at h
      split at h
      case h_2 hr =>
        have := ih h
        simp only [hr, List.length_cons] at hs
        omega
      case h_3 =>
        simp_all
        omega
      all_goals simp at h
    | object =>
      rw [leave] at h
      split at h
      case h_2 hr =>
        have := ih h
        simp only [hr, List.length_cons] at hs
        omega
      case h_3 =>
        obtain ⟨r, hr, h⟩ := bind_eq_ok_iff.1 h
        cases pure_eq_ok_iff.1 h
        have := length_skipName hr
        simp_all
        omega
      all_goals simp at h

/-- Goes past a value that stands inside the given containers, and past all of these. -/
def skipNested (frames : List Frame) (s : List Char) : Except Fault (List Char) :=
  match _h : enter s with
  | .error fault => .error fault
  | .ok (some frame, rest) => skipNested (frame :: frames) rest
  | .ok (none, rest) =>
    match _h' : leave frames rest with
    | .error fault => .error fault
    | .ok ([], rest) => .ok rest
    | .ok (frame :: outer, rest) => skipNested (frame :: outer) rest
termination_by s.length
decreasing_by
  · exact length_enter _h
  · exact Nat.lt_of_le_of_lt (length_leave _h') (length_enter _h)

/-- Goes past any value. -/
def skipValue (s : List Char) : Except Fault (List Char) := skipNested [] s

theorem length_skipNested {frames : List Frame} {s rest : List Char}
    (h : skipNested frames s = .ok rest) : rest.length < s.length := by
  fun_induction skipNested frames s with
  | case1 => simp at h
  | case2 _ _ _ _ he ih => exact Nat.lt_trans (ih h) (length_enter he)
  | case3 => simp at h
  | case4 _ _ _ he _ hl =>
    cases h
    exact Nat.lt_of_le_of_lt (length_leave hl) (length_enter he)
  | case5 _ _ _ he _ _ _ hl ih =>
    exact Nat.lt_trans (ih h) (Nat.lt_of_le_of_lt (length_leave hl) (length_enter he))

theorem length_skipValue {s rest : List Char} (h : skipValue s = .ok rest) :
    rest.length < s.length := length_skipNested h

end TapeMachine.Json
