import Calculator.Binary64.Basic

/-!
# Comparing doubles

`rank` places every number on a line of integers, so that numeric comparison is comparison of ranks:
the two zeros share a rank and NaN has none. `max` and `min` refine that order to a total one, in which
the zeros are told apart by sign and NaN stands just inside one of the infinities.
-/

namespace Calculator.Binary64

/-- The place of a number among all numbers; both zeros are at 0 and NaN has no place. -/
def rank? : Binary64 → Option Int
  | nan => none
  | infinite negative => some (if negative then -(finiteCount : Int) else finiteCount)
  | finite negative ordinal => some (if negative then -(ordinal.val : Int) else ordinal.val)

def lt (x y : Binary64) : Bool :=
  match x.rank?, y.rank? with
  | some a, some b => decide (a < b)
  | _, _ => false

def le (x y : Binary64) : Bool :=
  match x.rank?, y.rank? with
  | some a, some b => decide (a ≤ b)
  | _, _ => false

/-- Numeric equality: the zeros are equal, and NaN equals nothing. -/
def same (x y : Binary64) : Bool :=
  match x.rank?, y.rank? with
  | some a, some b => a == b
  | _, _ => false

def isZero (x : Binary64) : Bool := x.rank? == some 0

def isUnit (x : Binary64) : Bool := (-one).le x && x.le one

def isInteger : Binary64 → Int → Bool
  | finite negative ordinal, i => (if negative then -(units ordinal : Int) else units ordinal) == i * unitsPerOne
  | _, _ => false

def exceeds : Binary64 → Nat → Bool
  | finite negative ordinal, n => !negative && decide (n * unitsPerOne < units ordinal)
  | infinite negative, _ => !negative
  | nan, _ => false

/-- The larger number: `+∞` is larger than NaN, NaN than every other number, and `+0` than `-0`. -/
def max (x y : Binary64) : Binary64 :=
  if x = infinite false ∨ y = infinite false then infinite false
  else if x.isNaN || y.isNaN then nan
  else if x.isZero && y.isZero then (if x.isNegative then y else x)
  else if y.lt x then x else y

/-- The smaller number: `-∞` is smaller than NaN, NaN than every other number, and `-0` than `+0`. -/
def min (x y : Binary64) : Binary64 :=
  if x = infinite true ∨ y = infinite true then infinite true
  else if x.isNaN || y.isNaN then nan
  else if x.isZero && y.isZero then (if x.isNegative then x else y)
  else if x.lt y then x else y

end Calculator.Binary64
