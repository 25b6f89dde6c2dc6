import Calculator.Binary64.Basic

/-!
# Rounding to the nearest double

Every exact result that is turned back into a double goes through `ofRatio`: the nearest double to a
quotient of naturals, a tie going to the even ordinal, and a magnitude beyond the largest finite one to
infinity. `roundDiv` is the same rule on naturals and serves the decimal side as well.
-/

namespace Calculator

/-- The natural nearest to `num / den`, a tie going to the even one. -/
def roundDiv (num den : Nat) : Nat :=
  let quotient := num / den
  let twice := 2 * (num % den)
  if twice < den then quotient
  else if den < twice then quotient + 1
  else quotient + quotient % 2

namespace Binary64

/-- The ordinal nearest to `num / den` steps, as if ordinals went on beyond the finite ones. -/
def nearestOrdinal (num den : Nat) : Nat :=
  let shift := (num / den).log2 - 52
  shift * 2 ^ 52 + roundDiv num (den * 2 ^ shift)

def ofOrdinal (negative : Bool) (ordinal : Nat) : Binary64 :=
  if h : ordinal < finiteCount then finite negative ⟨ordinal, h⟩ else infinite negative

def ofRatio (negative : Bool) (num den : Nat) : Binary64 :=
  ofOrdinal negative (nearestOrdinal (num * unitsPerOne) den)

/-- The double nearest to an integer; zero is `+0`. -/
def ofInt (i : Int) : Binary64 := ofRatio (decide (i < 0)) i.natAbs 1

end Binary64
end Calculator
