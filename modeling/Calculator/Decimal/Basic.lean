import Calculator.Binary64.Rounding

/-!
# Decimals

A natural number times a power of ten, as read from a numeral or chosen to stand for a double. The
double it denotes is the one nearest to its exact value.
-/

namespace Calculator

structure Decimal where
  coefficient : Nat
  exponent : Int
deriving DecidableEq, Inhabited, Repr

namespace Decimal

def toBinary64 (d : Decimal) : Binary64 :=
  if 0 ≤ d.exponent then Binary64.ofRatio false (d.coefficient * 10 ^ d.exponent.toNat) 1
  else Binary64.ofRatio false d.coefficient (10 ^ (-d.exponent).toNat)

def significantDigits (d : Decimal) : List Char :=
  let digits := Nat.toDigits 10 d.coefficient
  match (digits.reverse.dropWhile (· == '0')).reverse with
  | [] => ['0']
  | kept => kept

/-- How many digits stand before the point when the significant digits are written from the first on;
below one, how many zeros stand between the point and them, negated. -/
def pointPlace (d : Decimal) : Int := (Nat.toDigits 10 d.coefficient).length + d.exponent

end Decimal
end Calculator
