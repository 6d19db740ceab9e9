import TapeMachine.Json.Token
/-!
# A value of another kind

Where a value does not fit what is read, the fault names what was found instead. A scalar is read
to its end for that, so a fault inside it comes first; of an array or an object only the kind is
told.
-/
namespace TapeMachine.Json

/-- Appends digits to a number while it stays below `limit`; gives the number and the digits that
no longer fit. -/
def absorb (limit n : Nat) : List Nat → Nat × List Nat
  | [] => (n, [])
  | d :: ds => if n * 10 + d < limit then absorb limit (n * 10 + d) ds else (n, d :: ds)

/-- A number of the given sign and significand, scaled by a power of ten. -/
def floating (negative : Bool) (significand : Nat) (exponent : Int) : Option Found :=
  (Decimal.scaled (UInt64.ofNat significand) exponent).map fun x =>
    .floating (if negative then -x else x).toBits

/-- The value of a number that `rest` follows. Whole numbers that fit in 64 bits stay whole, except
for a negative zero. Otherwise the significand takes as many digits as fit in 64 bits: further ones
before the point count as zeros, those after it are left out. -/
def NumberText.found (number : NumberText) (rest : List Char) : Except Fault Found :=
  let (whole, surplus) := absorb UInt64.size 0 number.whole
  let fraction := number.fraction.getD []
  let (significand, unused) := absorb UInt64.size whole fraction
  let place : Int := surplus.length - (fraction.length - unused.length : Nat)
  let inRange (value : Option Found) : Except Fault Found :=
    match value with
    | some found => .ok found
    | none => .error (.here .numberOutOfRange rest)
  match number.fraction, number.exponent with
  | none, none =>
    if surplus = [] ∧ ¬ number.negative then .ok (.integer whole)
    else if surplus = [] ∧ 0 < whole ∧ whole ≤ UInt64.size / 2 then .ok (.integer (-whole))
    else inRange (floating number.negative significand place)
  | _, none => inRange (floating number.negative significand place)
  | _, some (negative, ds) =>
    match absorb (UInt32.size / 2) 0 ds with
    | (exponent, []) =>
      inRange (floating number.negative significand
        (if negative then place - exponent else place + exponent))
    | (_, _ :: later) =>
      if significand = 0 ∨ negative then inRange (floating number.negative 0 0)
      else .error ⟨.numberOutOfRange, byteCount rest + later.length⟩

/-- Reads a scalar, or notes the bracket that stands in its place. -/
def readFound : List Char → Except Fault (Found × List Char)
  | [] => .error (.next .endInValue [])
  | 'n' :: s => return (.null, ← readWord ['u', 'l', 'l'] s)
  | 't' :: s => return (.boolean true, ← readWord ['r', 'u', 'e'] s)
  | 'f' :: s => return (.boolean false, ← readWord ['a', 'l', 's', 'e'] s)
  | '-' :: s => do
    let (number, rest) ← readNumber .endInValue true s
    return (← number.found rest, rest)
  | '"' :: s => do
    let (text, rest) ← readString [] s
    return (.text text, rest)
  | '[' :: s => .ok (.array, '[' :: s)
  | '{' :: s => .ok (.object, '{' :: s)
  | c :: s =>
    if isDigit c then do
      let (number, rest) ← readNumber .endInValue false (c :: s)
      return (← number.found rest, rest)
    else .error (.next .expectedValue (c :: s))

/-- The fault of a text that does not start with the `expected` value. -/
def mismatch (expected : String) (s : List Char) : Fault :=
  match readFound s with
  | .error fault => fault
  | .ok (found, rest) => .here (.invalidType found expected) rest

end TapeMachine.Json
