/-!
# Shortest decimal text of a binary64 number

A number is written with the fewest digits that still tell it from its neighbours. All reals
that round to it form an interval; the coarsest power of ten with a multiple inside gives the
digits, and of two multiples the nearer one is taken. The arithmetic is exact.
-/
namespace TapeMachine.Decimal

/-- The reals that round to a positive number, counted in units of `2 ^ exponent`. The ends belong
to the interval if it is `closed`. -/
structure Interval where
  low : Nat
  value : Nat
  high : Nat
  closed : Bool
  exponent : Int

/-- The interval of the number with these bits; the sign is left out. Below a power of two the
neighbours are twice as close. -/
def Interval.ofBits (bits : UInt64) : Interval :=
  let leading := Nat.pow 2 52
  let field := bits.toNat / leading % 2048
  let fraction := bits.toNat % leading
  let mantissa := if field = 0 then fraction else fraction + leading
  { low := 4 * mantissa - (if fraction = 0 ∧ 1 < field then 1 else 2)
    value := 4 * mantissa
    high := 4 * mantissa + 2
    closed := mantissa % 2 = 0
    exponent := (max field 1 : Nat) - 1077 }

/-- The multiple of `10 ^ place` in the interval that is nearest to its number, as a count; of
two that are equally near the even one. -/
def Interval.multiple? (i : Interval) (place : Int) : Option Nat :=
  let unit := Nat.pow 2 i.exponent.toNat * Nat.pow 10 (-place).toNat
  let step := Nat.pow 10 place.toNat * Nat.pow 2 (-i.exponent).toNat
  let inside (n : Nat) : Bool :=
    if i.closed then i.low * unit ≤ n * step ∧ n * step ≤ i.high * unit
    else i.low * unit < n * step ∧ n * step < i.high * unit
  let below := i.value * unit / step
  match inside below, inside (below + 1) with
  | false, false => none
  | true, false => some below
  | false, true => some (below + 1)
  | true, true =>
    let twice := 2 * i.value * unit
    let middle := (2 * below + 1) * step
    if twice < middle ∨ twice = middle ∧ below % 2 = 0 then some below else some (below + 1)

/-- Count and place of the shortest decimal in the interval: places from the largest to the
smallest that binary64 numbers need. -/
def Interval.shortest (i : Interval) : Nat × Int :=
  ((List.range 633).findSome? fun (k : Nat) =>
    let place : Int := 308 - k
    (i.multiple? place).map (·, place)).getD (0, 0)

/-- How a decimal is laid out. An exponent is written with its sign. -/
structure Layout where
  /-- Numbers whose first digit has a place from `leastPlace` to `greatestPlace` are written
  without an exponent. -/
  leastPlace : Int
  greatestPlace : Int

/-- The digits of a number, most significant first. -/
def digits (n : Nat) : List Char := Nat.toDigits 10 n

/-- Writes the decimal with digits `ds` of which the last has the place `last`. -/
def Layout.place (layout : Layout) (ds : List Char) (last : Int) : List Char :=
  let first := last + ds.length - 1
  if layout.leastPlace ≤ first ∧ first ≤ layout.greatestPlace then
    if 0 ≤ last then ds ++ List.replicate last.toNat '0' ++ ['.', '0']
    else if 0 ≤ first then ds.take (first.toNat + 1) ++ '.' :: ds.drop (first.toNat + 1)
    else ['0', '.'] ++ List.replicate (-first - 1).toNat '0' ++ ds
  else
    ds.take 1 ++ (if ds.length = 1 then [] else '.' :: ds.drop 1) ++
      ['e', if first < 0 then '-' else '+'] ++ digits first.natAbs

/-- The text of the finite number with these bits. -/
def Layout.text (layout : Layout) (bits : UInt64) : String :=
  let signBit := Nat.pow 2 63
  let sign := if bits.toNat < signBit then [] else ['-']
  if bits.toNat % signBit = 0 then String.ofList (sign ++ ['0', '.', '0'])
  else
    let (count, place) := (Interval.ofBits bits).shortest
    String.ofList (sign ++ layout.place (digits count) place)

end TapeMachine.Decimal
