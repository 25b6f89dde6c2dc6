import Calculator.Decimal.Layout
import Calculator.Expr.Basic

/-!
# Writing expressions

`Expr.source` writes a tree as text that reads back to it, up to the parentheses it has to add. Every
expression stands at a level, the loosest operators at the lowest; it is put into parentheses exactly
where a tighter level is asked for. A negative number is written as a sign before its magnitude and
stands at the level of signs, and a number under a sign has to be a primary, so two signs of which one
belongs to a number never meet.
-/

namespace Calculator

inductive WriteError where
  | noLiteral (value : Binary64)
  | notAnExpression (kind : String)
  | outOfStack (doing : String)
deriving DecidableEq, Inhabited

def WriteError.message : WriteError → String
  | noLiteral value => "no literal syntax for " ++ value.text
  | notAnExpression kind => "unknown node type " ++ kind
  | outOfStack doing => "maximum recursion depth exceeded" ++ doing

/-! ## Levels -/

abbrev Level := Nat

namespace Level

def bitOr : Level := 1
def bitAnd : Level := 2
def sum : Level := 3
def product : Level := 4
def sign : Level := 5
def power : Level := 6
def primary : Level := 7

end Level

def Operator.level : Operator → Level
  | bitOr => Level.bitOr
  | bitAnd => Level.bitAnd
  | add | sub => Level.sum
  | mul | div | mod => Level.product
  | pow => Level.power
  | other _ => Level.bitOr

def Operator.leftLevel : Operator → Level
  | pow => Level.primary
  | op => op.level

def Operator.rightLevel : Operator → Level
  | pow => Level.sign
  | op => op.level + 1

namespace Expr

def level : Expr → Level
  | number x => if x.isNegative then Level.sign else Level.primary
  | signed _ _ => Level.sign
  | binary op _ _ => op.level
  | _ => Level.primary

def signedLevel : Expr → Level
  | number _ => Level.primary
  | _ => Level.sign

/-- The text of an expression where a level is asked for. -/
def enclose (e : Expr) (asked : Level) (text : String) : String :=
  if e.level < asked then "(" ++ text ++ ")" else text

/-- The text of a number without a sign. A whole number too large for an integer keeps a point. -/
def magnitudeSource (x : Binary64) : String :=
  let text := x.text
  let plain := if text.toList.contains 'e' then (Numeral.ofScientific text.toList).text else text
  let short := cutPointZero plain
  if !short.toList.contains '.' && x.exceeds maxInteger then short ++ ".0" else short

def numberSource (x : Binary64) : Except WriteError String :=
  if x.isInfinite || x.isNaN then .error (.noLiteral x)
  else if x.isNegative then .ok ("-" ++ magnitudeSource (-x))
  else .ok (magnitudeSource x)

mutual

def source : Expr → Except WriteError String
  | number x => numberSource x
  | name n => .ok n
  | signed s e => do
    let text ← e.source
    return s.symbol ++ e.enclose e.signedLevel text
  | binary op l r => do
    let left ← l.source
    let right ← r.source
    return l.enclose op.leftLevel left ++ " " ++ op.symbol ++ " " ++ r.enclose op.rightLevel right
  | group e => do
    let text ← e.source
    return "(" ++ text ++ ")"
  | call f args => do
    let texts ← sources args
    return f ++ "(" ++ String.intercalate ", " texts ++ ")"
  | foreign kind => .error (.notAnExpression kind)

def sources : List Expr → Except WriteError (List String)
  | [] => .ok []
  | e :: es => do
    let text ← e.source
    let texts ← sources es
    return text :: texts

end

end Expr
end Calculator
