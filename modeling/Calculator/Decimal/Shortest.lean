import Calculator.Decimal.Basic

/-!
# The shortest decimal of a double

`shortest` finds, for a finite magnitude, the decimal with the fewest digits that denotes it, and of
those with equally few the nearest. It tries one digit, then two, up to the seventeen that always
suffice; on each of these decimal grids only the two neighbours of the magnitude can be the answer.
-/

namespace Calculator.Decimal

def gridRatio (ordinal : Nat) (exponent : Int) : Nat × Nat :=
  if 0 ≤ exponent then (Binary64.units ordinal, Binary64.unitsPerOne * 10 ^ exponent.toNat)
  else (Binary64.units ordinal * 10 ^ (-exponent).toNat, Binary64.unitsPerOne)

/-- The power of ten of the leading digit of a nonzero magnitude. The power of two below it, times a bound
on the logarithm of two, is right or one too low. -/
def leadingExponent (ordinal : Nat) : Int :=
  let binary : Int := (Binary64.units ordinal).log2 - 1074
  let decimal := (binary * (if 0 ≤ binary then 30102 else 30104)).fdiv 100000
  let (num, den) := gridRatio ordinal (decimal + 1)
  if den ≤ num then decimal + 1 else decimal

/-- The neighbour of a magnitude on the grid of `10 ^ exponent` that denotes it, the nearer one if
both do. -/
def onGrid? (ordinal : Fin finiteCount) (exponent : Int) : Option Decimal :=
  let (num, den) := gridRatio ordinal exponent
  let below := num / den
  let nearest := roundDiv num den
  let other := if nearest = below then below + 1 else below
  [nearest, other].findSome? fun coefficient =>
    let d : Decimal := ⟨coefficient, exponent⟩
    if d.toBinary64 = .finite false ordinal then some d else none

/-- Every magnitude has finitely many digits, `2 ^ (-1074)` being `5 ^ 1074 * 10 ^ (-1074)`. -/
def exact (ordinal : Nat) : Decimal := ⟨Binary64.units ordinal * 5 ^ 1074, -1074⟩

def shortest (ordinal : Fin finiteCount) : Decimal :=
  if ordinal.val = 0 then ⟨0, 0⟩
  else
    let leading := leadingExponent ordinal
    ((List.range 17).findSome? fun (k : Nat) => onGrid? ordinal (leading - k)).getD (exact ordinal)

end Calculator.Decimal
