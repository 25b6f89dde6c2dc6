import Calculator.Binary64.Order

/-!
# Expressions

The trees that expression text stands for and that evaluation folds. A tree built by other means than
reading text may hold operators and signs without a meaning, and things that are no expression at all.
-/

namespace Calculator

inductive Sign where
  | plus
  | minus
  | other (symbol : String)
deriving DecidableEq, Inhabited, Repr

namespace Sign

def symbol : Sign → String
  | plus => "+"
  | minus => "-"
  | other s => s

def ofSymbol (s : String) : Sign :=
  if s = "+" then plus else if s = "-" then minus else other s

end Sign

inductive Operator where
  | add
  | sub
  | mul
  | div
  | mod
  | bitAnd
  | bitOr
  | pow
  | other (symbol : String)
deriving DecidableEq, Inhabited, Repr

namespace Operator

def known : List Operator := [add, sub, mul, div, mod, bitAnd, bitOr, pow]

/-- The caret, elsewhere often an exclusive or, stands for powers. -/
def symbol : Operator → String
  | add => "+"
  | sub => "-"
  | mul => "*"
  | div => "/"
  | mod => "%"
  | bitAnd => "&"
  | bitOr => "|"
  | pow => "^"
  | other s => s

def ofSymbol (s : String) : Operator := (known.find? (·.symbol == s)).getD (other s)

end Operator

inductive Expr where
  | number (value : Binary64)
  | name (name : String)
  | signed (sign : Sign) (operand : Expr)
  | binary (operator : Operator) (left right : Expr)
  | group (inner : Expr)
  | call (function : String) (arguments : List Expr)
  /-- Something that is no expression, known by the name of its kind. -/
  | foreign (kind : String)
deriving Inhabited

namespace Expr

mutual

/-- Equality of trees up to numeric equality of their numbers: the two zeros are not told apart. -/
def same : Expr → Expr → Bool
  | number x, number y => x.same y
  | name a, name b => a == b
  | signed s a, signed t b => s == t && a.same b
  | binary o a b, binary p c d => o == p && a.same c && b.same d
  | group a, group b => a.same b
  | call f as, call g bs => f == g && sameAll as bs
  | foreign k, foreign l => k == l
  | _, _ => false

def sameAll : List Expr → List Expr → Bool
  | [], [] => true
  | a :: as, b :: bs => a.same b && sameAll as bs
  | _, _ => false

end

end Expr
end Calculator
