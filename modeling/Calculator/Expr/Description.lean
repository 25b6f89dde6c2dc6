import Calculator.Expr.Printer
import Calculator.Text.Listing
import Calculator.Text.Quoted

/-!
# Descriptions of trees

A tree spelled out node by node with the name of every part, for the log. The stack has room for so many levels
of nesting, to which every node adds one, those along a chain of operators too.
-/

namespace Calculator

def Sign.title : Sign → String
  | plus => "PLUS"
  | minus => "MINUS"
  | other _ => "OTHER"

def Sign.description (s : Sign) : String := "<Sign." ++ s.title ++ ": " ++ Text.quoted s.symbol ++ ">"

def Operator.title : Operator → String
  | add => "ADD"
  | sub => "SUB"
  | mul => "MUL"
  | div => "DIV"
  | mod => "MOD"
  | bitAnd => "BIT_AND"
  | bitOr => "BIT_OR"
  | pow => "POW"
  | other _ => "OTHER"

def Operator.description (op : Operator) : String :=
  "<Operator." ++ op.title ++ ": " ++ Text.quoted op.symbol ++ ">"

namespace Expr

def descriptionOverflow : WriteError := .outOfStack " while getting the repr of an object"

def describeWithin : Nat → Expr → Except WriteError String
  | 0, _ => .error descriptionOverflow
  | limit + 1, e =>
    let describe := describeWithin limit
    match e with
    | number x => .ok ("Literal(value=" ++ x.text ++ ")")
    | name n => .ok ("Identifier(name=" ++ Text.quoted n ++ ")")
    | signed s operand => do
      let text ← describe operand
      return "Unary(op=" ++ s.description ++ ", operand=" ++ text ++ ")"
    | binary op left right => do
      let before ← describe left
      let behind ← describe right
      return "Binary(op=" ++ op.description ++ ", left=" ++ before ++ ", right=" ++ behind ++ ")"
    | group inner => do
      let text ← describe inner
      return "Grouping(inner=" ++ text ++ ")"
    | call f args => do
      let texts ← args.mapM describe
      return "Call(name=" ++ Text.quoted f ++ ", args=" ++ Text.listing texts ++ ")"
    | foreign kind => .ok kind

end Expr
end Calculator
