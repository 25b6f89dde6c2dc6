/-!
# Diagnostics

What a reader of the program is told when an expression fails: a category, a message, and for faults of
the text the column. Categories form a tree under the general one, and a narrower category may have a
`kind` of its own or share that of the category above.
-/

namespace Calculator

inductive Category where
  | general
  | grammar
  | lexical
  | evaluation
  | unknownIdentifier
  | unknownFunction
  | arityMismatch
  | unknownOperator
  | integerDivisionByZero
deriving DecidableEq, Inhabited, Repr

namespace Category

/-- The categories that include this one, the narrowest (itself) first. -/
def lineage : Category → List Category
  | general => [general]
  | grammar => [grammar, general]
  | lexical => [lexical, grammar, general]
  | evaluation => [evaluation, general]
  | narrow => [narrow, evaluation, general]

def kind : Category → String
  | general => "error"
  | grammar => "syntax error"
  | lexical => "syntax error"
  | evaluation => "evaluation error"
  | unknownIdentifier => "unknown identifier"
  | unknownFunction => "unknown function"
  | arityMismatch => "arity mismatch"
  | unknownOperator => "unknown operator"
  | integerDivisionByZero => "integer division by zero"

end Category

structure Diagnostic where
  category : Category
  message : String
  /-- Columns count characters from 1. -/
  column : Option Int
deriving DecidableEq, Inhabited, Repr

namespace Diagnostic

def text (d : Diagnostic) : String :=
  match d.column with
  | none => d.message
  | some column => d.message ++ " at col " ++ toString column

def kind (d : Diagnostic) : String := d.category.kind

end Diagnostic
end Calculator
