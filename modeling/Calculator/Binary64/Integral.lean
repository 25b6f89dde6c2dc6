import Calculator.Binary64.Rounding

/-!
# Whole-number operations on doubles

The operations that first cut their operands down to signed 64-bit integers: remainder, bitwise and, bitwise or.
A number without such an integer (NaN, an infinity, anything outside `[-2^63, 2^63)`) is cut to the smallest one.
-/

namespace Calculator.Binary64

/-- Truncation toward zero, unbounded; none for NaN and the infinities. -/
def truncate? : Binary64 → Option Int
  | finite negative ordinal =>
    let whole : Int := units ordinal / unitsPerOne
    some (if negative then -whole else whole)
  | _ => none

def toInt64 (x : Binary64) : Int64 :=
  match x.truncate? with
  | some whole => if Int64.minValue.toInt ≤ whole ∧ whole ≤ Int64.maxValue.toInt then Int64.ofInt whole
      else Int64.minValue
  | none => Int64.minValue

/-- The remainder of truncated division of the integer parts, of the sign of the dividend; none when
the divisor's is zero. -/
def remainder? (x y : Binary64) : Option Binary64 :=
  let divisor := y.toInt64.toInt
  if divisor = 0 then none else some (ofInt (x.toInt64.toInt.tmod divisor))

def bitAnd (x y : Binary64) : Binary64 := ofInt (x.toInt64 &&& y.toInt64).toInt

def bitOr (x y : Binary64) : Binary64 := ofInt (x.toInt64 ||| y.toInt64).toInt

end Calculator.Binary64
