import Calculator.Binary64.Integral
import Calculator.Binary64.Machine

/-!
# Functions without gaps

The machine's functions with a result of IEEE 754 wherever the machine refuses: NaN outside a domain, and an
infinity for a division by zero, a logarithm or a negative power of zero, and a power out of range.
-/

namespace Calculator.Binary64

def sqrt (x : Binary64) : Except MathError Binary64 := if x.lt zero then .ok nan else Machine.sqrt x

/-- NaN and the infinities are whole as they are. -/
def rounded (f : Binary64 → Except MathError Int) (x : Binary64) : Except MathError Binary64 :=
  if x.isInfinite || x.isNaN then .ok x else (f x).map ofInt

def ln (x : Binary64) : Except MathError Binary64 :=
  if x.isNaN || x.lt zero then .ok nan
  else if x.isZero then .ok (infinite true)
  else Machine.log x

def periodic (f : Binary64 → Except MathError Binary64) (x : Binary64) : Except MathError Binary64 :=
  if x.isInfinite then .ok nan else f x

def onUnit (f : Binary64 → Except MathError Binary64) (x : Binary64) : Except MathError Binary64 :=
  if !x.isUnit then .ok nan else f x

/-- Dividing by a zero gives an infinity with the sign of both, and NaN for zero itself and NaN. -/
def div (x y : Binary64) : Except MathError Binary64 :=
  if y.isZero then
    if x.isZero || x.isNaN then .ok nan
    else .ok ((infinite false).copySign x * one.copySign y)
  else Machine.div x y

/-- The logarithm of `x` to a base, as the quotient of two natural ones. -/
def log (x base : Binary64) : Except MathError Binary64 := do
  let numerator ← ln x
  let denominator ← ln base
  div numerator denominator

def isOddInteger (y : Binary64) : Except MathError Bool :=
  if y.isInfinite || y.isNaN then .ok false
  else do
    let below ← Machine.floor y
    if !y.isInteger below then return false
    let whole ← Machine.truncate y
    return whole % 2 == 1

/-- Refused powers are infinite where the exact power is too large or the base a zero, negative if a sign is left
over; a broken power of a negative number is NaN. -/
def pow (x y : Binary64) : Except MathError Binary64 :=
  match Machine.pow x y with
  | .ok power => .ok power
  | .error .range | .error .wholeOfInfinity => do
    if x.lt zero then
      if ← y.isOddInteger then return infinite true
    return infinite false
  | .error .domain | .error .wholeOfNaN => do
    if x.isZero then
      if ← y.isOddInteger then return (infinite false).copySign x
      return infinite false
    return nan
  | .error .zeroDivision => .error .zeroDivision

end Calculator.Binary64
