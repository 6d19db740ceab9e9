/-!
# Scaled significands

The binary64 value of a decimal, found by scaling its significand with a single power of ten. The
last bit is thereby not always that of the nearest number.
-/
namespace TapeMachine.Decimal

/-- The greatest exponent of a power of ten within the range. -/
def greatestPower : Nat := 308

def powerOfTen (n : Nat) : Float := Float.ofScientific 1 false n

/-- Divides by `10 ^ k`, in several steps if that power is out of range. -/
def divideByPower (x : Float) (k : Nat) : Float :=
  if k ≤ greatestPower then x / powerOfTen k
  else if x == 0.0 then x
  else divideByPower (x / powerOfTen greatestPower) (k - greatestPower)
termination_by k
decreasing_by simp only [greatestPower] at *; omega

/-- `significand * 10 ^ exponent`, unless it is beyond the range. -/
def scaled (significand : UInt64) (exponent : Int) : Option Float :=
  let x := significand.toFloat
  if exponent < 0 then some (divideByPower x exponent.natAbs)
  else if exponent.natAbs ≤ greatestPower then
    let y := x * powerOfTen exponent.natAbs
    if y.isInf then none else some y
  else if x == 0.0 then some x
  else none

end TapeMachine.Decimal
