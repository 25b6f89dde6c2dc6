import Calculator.Expr.Printer

/-!
# Prefix dumps

A tree as nested parentheses with the operator in front, such as `(+ 1 (* 2 3))`. Numbers are written
as results are, without the `.0` of a whole one. Every node takes a level of the stack, those along a chain of
operators too.
-/

namespace Calculator

def Binary64.dump (x : Binary64) : String := cutPointZero x.text

namespace Expr

def dumpOverflow : WriteError := .outOfStack ""

def dumpWithin : Nat → Expr → Except WriteError String
  | 0, _ => .error dumpOverflow
  | limit + 1, e =>
    let dump := dumpWithin limit
    match e with
    | number x => .ok x.dump
    | name n => .ok n
    | signed s operand => do
      let text ← dump operand
      return "(" ++ (if s = .minus then "neg" else "pos") ++ " " ++ text ++ ")"
    | binary op left right => do
      let before ← dump left
      let behind ← dump right
      return "(" ++ op.symbol ++ " " ++ before ++ " " ++ behind ++ ")"
    | group inner => do
      let text ← dump inner
      return "(group " ++ text ++ ")"
    | call f args => do
      let texts ← args.mapM dump
      return "(" ++ String.intercalate " " ("call" :: f :: texts) ++ ")"
    | foreign kind => .error (.notAnExpression kind)

end Expr
end Calculator
