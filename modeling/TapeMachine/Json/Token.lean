import TapeMachine.Decimal.Scaled
import TapeMachine.Fallible
import TapeMachine.Json.Fault
/-!
# The words of JSON

Blanks, the three words, strings and numbers, each read from the front of a text. A string is
read up to its closing quote, with escapes replaced by what they stand for. Every function gives
back what it left unread, which the lemmas say is never longer than what it was given.
-/
namespace TapeMachine.Json

def isBlank (c : Char) : Bool := c = ' ' || c = '\n' || c = '\t' || c = '\r'

/-- The text from its first character that is not blank. -/
def skipBlanks (s : List Char) : List Char := s.dropWhile isBlank

theorem length_skipBlanks_le (s : List Char) : (skipBlanks s).length ≤ s.length :=
  (List.dropWhile_sublist _).length_le

/-! ## Words -/

/-- Goes past the rest of a word. -/
def readWord : List Char → List Char → Except Fault (List Char)
  | [], s => .ok s
  | _ :: _, [] => .error (.here .endInValue [])
  | w :: word, c :: s => if c = w then readWord word s else .error (.next .expectedWord (c :: s))

theorem length_readWord {word s rest : List Char} (h : readWord word s = .ok rest) :
    rest.length ≤ s.length := by
  induction word generalizing s with
  | nil => simp_all [readWord]
  | cons w word ih =>
    cases s with
    | nil => simp [readWord] at h
    | cons c s =>
      rw [readWord] at h
      split at h
      · exact Nat.le_trans (ih h) (by simp)
      · simp at h

/-! ## Strings -/

def hexDigit? (c : Char) : Option Nat :=
  if '0' ≤ c ∧ c ≤ '9' then some (c.toNat - '0'.toNat)
  else if 'a' ≤ c ∧ c ≤ 'f' then some (c.toNat - 'a'.toNat + 10)
  else if 'A' ≤ c ∧ c ≤ 'F' then some (c.toNat - 'A'.toNat + 10)
  else none

/-- The value of four hexadecimal digits. -/
def hexValue? (a b c d : Char) : Option Nat := do
  return (((← hexDigit? a) * 16 + (← hexDigit? b)) * 16 + (← hexDigit? c)) * 16 + (← hexDigit? d)

/-- Reads four hexadecimal digits. Four bytes are taken for them whatever they hold. -/
def readHex : List Char → Except Fault (Nat × List Char)
  | a :: b :: c :: d :: rest =>
    match hexValue? a b c d with
    | some n => .ok (n, rest)
    | none => .error ⟨.invalidEscape, byteCount (a :: b :: c :: d :: rest) - 4⟩
  | s => .error (if byteCount s < 4 then .here .endInString [] else ⟨.invalidEscape, byteCount s - 4⟩)

def isLeadingSurrogate (n : Nat) : Bool := 0xd800 ≤ n && n ≤ 0xdbff

def isTrailingSurrogate (n : Nat) : Bool := 0xdc00 ≤ n && n ≤ 0xdfff

/-- Reads the second half of a surrogate pair and gives the character of both. -/
def readTrailing (leading : Nat) : List Char → Except Fault (Char × List Char)
  | '\\' :: 'u' :: s => do
    let (trailing, rest) ← readHex s
    if isTrailingSurrogate trailing then
      return (Char.ofNat ((leading - 0xd800) * 0x400 + (trailing - 0xdc00) + 0x10000), rest)
    else throw (.here .loneSurrogate rest)
  | [] | ['\\'] => .error (.here .endInString [])
  | '\\' :: s => .error (.next .unpairedSurrogate s)
  | s => .error (.next .unpairedSurrogate s)

/-- Reads what follows `\u`. -/
def readUnicode (s : List Char) : Except Fault (Char × List Char) := do
  let (n, rest) ← readHex s
  if isTrailingSurrogate n then throw (.here .loneSurrogate rest)
  else if isLeadingSurrogate n then readTrailing n rest
  else return (Char.ofNat n, rest)

/-- What the letter after a backslash stands for, `u` apart. -/
def unescape? : Char → Option Char
  | '"' => some '"'
  | '\\' => some '\\'
  | '/' => some '/'
  | 'b' => some '\x08'
  | 'f' => some '\x0c'
  | 'n' => some '\n'
  | 'r' => some '\r'
  | 't' => some '\t'
  | _ => none

/-- Reads what follows a backslash. -/
def readEscape : List Char → Except Fault (Char × List Char)
  | [] => .error (.here .endInString [])
  | 'u' :: s => readUnicode s
  | c :: s =>
    match unescape? c with
    | some d => .ok (d, s)
    | none => .error (.next .invalidEscape (c :: s))

theorem length_readHex {s rest : List Char} {n : Nat} (h : readHex s = .ok (n, rest)) :
    rest.length < s.length := by
  unfold readHex at h
  split at h
  · split at h
    · simp_all; omega
    · simp at h
  · simp at h

theorem length_readTrailing {leading : Nat} {s rest : List Char} {c : Char}
    (h : readTrailing leading s = .ok (c, rest)) : rest.length < s.length := by
  unfold readTrailing at h
  split at h
  · obtain ⟨⟨trailing, r⟩, hr, h⟩ := bind_eq_ok_iff.1 h
    have := length_readHex hr
    dsimp only at h
    split at h
    · obtain ⟨-, rfl⟩ := Prod.mk.inj (pure_eq_ok_iff.1 h)
      simp only [List.length_cons]
      omega
    · exact absurd h throw_ne_ok
  all_goals simp at h

theorem length_readUnicode {s rest : List Char} {c : Char} (h : readUnicode s = .ok (c, rest)) :
    rest.length < s.length := by
  obtain ⟨⟨n, r⟩, hr, h⟩ := bind_eq_ok_iff.1 h
  have := length_readHex hr
  dsimp only at h
  split at h
  · exact absurd h throw_ne_ok
  · split at h
    · exact Nat.lt_trans (length_readTrailing h) this
    · obtain ⟨-, rfl⟩ := Prod.mk.inj (pure_eq_ok_iff.1 h)
      exact this

theorem length_readEscape {s rest : List Char} {c : Char} (h : readEscape s = .ok (c, rest)) :
    rest.length < s.length := by
  unfold readEscape at h
  split at h
  · simp at h
  · exact Nat.lt_trans (length_readUnicode h) (by simp)
  · split at h
    · simp_all
    · simp at h

/-- Reads a string whose opening quote has been read, after the characters `done`, last first. -/
def readString (done : List Char) (s : List Char) : Except Fault (String × List Char) :=
  match s with
  | [] => .error (.here .endInString [])
  | '"' :: rest => .ok (String.ofList done.reverse, rest)
  | '\\' :: rest =>
    match _h : readEscape rest with
    | .error fault => .error fault
    | .ok (c, rest) => readString (c :: done) rest
  | c :: rest =>
    if c < ' ' then .error (.next .controlCharacter (c :: rest)) else readString (c :: done) rest
termination_by s.length
decreasing_by
  · have := length_readEscape _h
    simp only [List.length_cons]
    omega
  · simp

theorem length_readString {done s rest : List Char} {text : String}
    (h : readString done s = .ok (text, rest)) : rest.length < s.length := by
  fun_induction readString done s with
  | case1 => simp at h
  | case2 => simp_all
  | case3 => simp_all
  | case4 done s c r hr ih => have := length_readEscape hr; have := ih h; simp; omega
  | case5 => simp_all
  | case6 done c r _ _ _ ih => have := ih h; simp; omega

/-! ## Numbers -/

def isDigit (c : Char) : Bool := '0' ≤ c && c ≤ '9'

def digitValue (c : Char) : Nat := c.toNat - '0'.toNat

/-- A number as it is written: the digits before and after the point, and those of the exponent
with its sign. -/
structure NumberText where
  negative : Bool
  whole : List Nat
  fraction : Option (List Nat)
  exponent : Option (Bool × List Nat)
  deriving DecidableEq

/-- The digits at the front of a text. -/
def readDigits (s : List Char) : List Nat × List Char :=
  ((s.takeWhile isDigit).map digitValue, s.dropWhile isDigit)

/-- Reads the digits before the point; a zero stands alone. `atEnd` says what is wrong if there is
nothing. -/
def readWhole (atEnd : Cause) : List Char → Except Fault (List Nat × List Char)
  | [] => .error (.here atEnd [])
  | '0' :: s =>
    match s with
    | [] => .ok ([0], s)
    | c :: _ => if isDigit c then .error (.next .invalidNumber s) else .ok ([0], s)
  | c :: s => if isDigit c then .ok (readDigits (c :: s)) else .error (.next .invalidNumber (c :: s))

/-- Reads a point and the digits after it, if there is a point. -/
def readFraction (atEnd : Cause) : List Char → Except Fault (Option (List Nat) × List Char)
  | '.' :: s =>
    match readDigits s with
    | ([], []) => .error (.next atEnd [])
    | ([], rest) => .error (.next .invalidNumber rest)
    | (ds, rest) => .ok (some ds, rest)
  | s => .ok (none, s)

/-- Reads the digits of an exponent. -/
def readPower (atEnd : Cause) (negative : Bool) (s : List Char) :
    Except Fault (Option (Bool × List Nat) × List Char) :=
  match s, readDigits s with
  | [], _ => .error (.here atEnd [])
  | _ :: _, ([], _) => .error (.next .invalidNumber s)
  | _ :: _, (ds, rest) => .ok (some (negative, ds), rest)

/-- Reads an exponent, if there is one. -/
def readExponent (atEnd : Cause) : List Char → Except Fault (Option (Bool × List Nat) × List Char)
  | c :: s =>
    if c = 'e' ∨ c = 'E' then
      match s with
      | '+' :: s => readPower atEnd false s
      | '-' :: s => readPower atEnd true s
      | s => readPower atEnd false s
    else .ok (none, c :: s)
  | [] => .ok (none, [])

/-- Reads a number after its sign. -/
def readNumber (atEnd : Cause) (negative : Bool) (s : List Char) :
    Except Fault (NumberText × List Char) := do
  let (whole, s) ← readWhole atEnd s
  let (fraction, s) ← readFraction atEnd s
  let (exponent, s) ← readExponent atEnd s
  return (⟨negative, whole, fraction, exponent⟩, s)

theorem length_readDigits (s : List Char) : (readDigits s).2.length ≤ s.length :=
  (List.dropWhile_sublist _).length_le

theorem length_readWhole {atEnd : Cause} {s rest : List Char} {ds : List Nat}
    (h : readWhole atEnd s = .ok (ds, rest)) : rest.length < s.length := by
  unfold readWhole at h
  split at h
  · simp at h
  · split at h
    · simp_all
    · split at h <;> simp_all
  · rename_i c s _
    split at h
    · rename_i hc
      simp only [readDigits, Except.ok.injEq, Prod.mk.injEq, List.dropWhile_cons, hc, if_true] at h
      rw [← h.2]
      exact Nat.lt_succ_of_le (List.dropWhile_sublist _).length_le
    · simp at h

theorem length_readFraction {atEnd : Cause} {s rest : List Char} {ds : Option (List Nat)}
    (h : readFraction atEnd s = .ok (ds, rest)) : rest.length ≤ s.length := by
  unfold readFraction at h
  split at h
  · rename_i s
    have hs := length_readDigits s
    split at h
    · simp at h
    · simp at h
    · rename_i hr
      cases h
      rw [hr] at hs
      exact Nat.le_succ_of_le hs
  · cases h
    exact Nat.le_refl _

theorem length_readPower {atEnd : Cause} {negative : Bool} {s rest : List Char}
    {e : Option (Bool × List Nat)} (h : readPower atEnd negative s = .ok (e, rest)) :
    rest.length ≤ s.length := by
  have := length_readDigits s
  unfold readPower at h
  split at h <;> simp_all

theorem length_readExponent {atEnd : Cause} {s rest : List Char} {e : Option (Bool × List Nat)}
    (h : readExponent atEnd s = .ok (e, rest)) : rest.length ≤ s.length := by
  unfold readExponent at h
  split at h
  · split at h
    · split at h <;> have := length_readPower h <;> simp_all <;> omega
    · simp_all
  · simp_all

theorem length_readNumber {atEnd : Cause} {negative : Bool} {s rest : List Char}
    {number : NumberText} (h : readNumber atEnd negative s = .ok (number, rest)) :
    rest.length < s.length := by
  obtain ⟨⟨_, s₁⟩, h₁, h⟩ := bind_eq_ok_iff.1 h
  obtain ⟨⟨_, s₂⟩, h₂, h⟩ := bind_eq_ok_iff.1 h
  obtain ⟨⟨_, s₃⟩, h₃, h⟩ := bind_eq_ok_iff.1 h
  cases pure_eq_ok_iff.1 h
  have := length_readWhole h₁
  have := length_readFraction h₂
  have := length_readExponent h₃
  omega

end TapeMachine.Json
