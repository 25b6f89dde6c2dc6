/-!
# Ranges of code points

Character classes beyond ASCII are tables of such ranges.
-/

namespace Calculator

structure CodeRange where
  first : Nat
  last : Nat
deriving DecidableEq, Repr

def CodeRange.covers (r : CodeRange) (c : Char) : Bool :=
  decide (r.first ≤ c.toNat) && decide (c.toNat ≤ r.last)

def CodeRange.anyCovers (ranges : List CodeRange) (c : Char) : Bool := ranges.any (·.covers c)

end Calculator
