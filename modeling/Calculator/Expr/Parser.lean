import Calculator.Expr.Basic
import Calculator.Token.Lexer

/-!
# Reading expressions

From the loosest level to the tightest: `|`, `&`, sums, products, signs, powers, and the primaries, which
are numbers, names, calls and groups. The binary levels associate to the left and powers to the right; a
sign is looser than a power before it and may stand in its exponent. Reading works on lexemes alone and
says how many of them lie ahead when one is out of place; `Expr.parseWithin` turns that count into a column.
Nested parts, which are groups, arguments, exponents and what signs apply to, are read within a limit of
nesting, a chain of operators of one level being no nesting.
-/

namespace Calculator

inductive GrammarFault where
  | emptyExpression
  | unexpectedEnd
  | unexpected (lexeme : Lexeme)
  | unmatchedClosing
  | unmatchedOpening
  | emptyParentheses
  | emptyArgument
  | calleeNotName
  | tooDeep
deriving DecidableEq, Inhabited, Repr

def GrammarFault.message : GrammarFault → String
  | emptyExpression => "empty expression"
  | unexpectedEnd => "unexpected end of input"
  | unexpected lexeme => "unexpected token '" ++ lexeme.text ++ "'"
  | unmatchedClosing => "unmatched ')'"
  | unmatchedOpening => "unmatched '('"
  | emptyParentheses => "empty parentheses"
  | emptyArgument => "unsupported expression form: empty argument"
  | calleeNotName => "unsupported expression form: only a bare name can be called"
  | tooDeep => "expression nested too deeply"

/-- A fault and the number of lexemes from the one it concerns to the end. -/
structure GrammarError where
  fault : GrammarFault
  ahead : Nat
deriving DecidableEq, Inhabited, Repr

/-- A reader takes the lexemes ahead and gives what it has read with the lexemes left over. -/
abbrev Reader (α : Type) := List Lexeme → Except GrammarError (α × List Lexeme)

namespace Reader

def fail {α : Type} (fault : GrammarFault) (ahead : List Lexeme) : Except GrammarError α :=
  .error ⟨fault, ahead.length⟩

/-- What is wrong with the next lexeme where an operand or the end of a part should be. -/
def unexpected {α : Type} (ahead : List Lexeme) : Except GrammarError α :=
  match ahead with
  | [] => fail .unexpectedEnd ahead
  | .symbol .closing :: _ => fail .unmatchedClosing ahead
  | lexeme :: _ => fail (.unexpected lexeme) ahead

/-- Passes the parenthesis that closes the one at the head of `opened`. -/
def close (opened : List Lexeme) : List Lexeme → Except GrammarError (List Lexeme)
  | .symbol .closing :: rest => .ok rest
  | [] => fail .unmatchedOpening opened
  | ahead => unexpected ahead

/-! ## The operators of each level -/

def orOperator? : Symbol → Option Operator
  | .bar => some .bitOr
  | _ => none

def andOperator? : Symbol → Option Operator
  | .ampersand => some .bitAnd
  | _ => none

def sumOperator? : Symbol → Option Operator
  | .plus => some .add
  | .minus => some .sub
  | _ => none

def productOperator? : Symbol → Option Operator
  | .star => some .mul
  | .slash => some .div
  | .percent => some .mod
  | _ => none

def sign? : Symbol → Option Sign
  | .plus => some .plus
  | .minus => some .minus
  | _ => none

/-! ## Chains and argument lists

No chain and no argument list is longer than `room`, the number of lexemes of the whole text. -/

def chainFrom (operator? : Symbol → Option Operator) (operand : Reader Expr) : Nat → Expr → Reader Expr
  | 0, left, ahead => .ok (left, ahead)
  | room + 1, left, ahead =>
    match ahead with
    | .symbol s :: rest =>
      match operator? s with
      | some op =>
        match operand rest with
        | .error e => .error e
        | .ok (right, after) => chainFrom operator? operand room (.binary op left right) after
      | none => .ok (left, ahead)
    | _ => .ok (left, ahead)

/-- Operands joined by the operators of one level, which associate to the left. -/
def chain (operator? : Symbol → Option Operator) (room : Nat) (operand : Reader Expr) : Reader Expr :=
  fun ahead =>
    match operand ahead with
    | .error e => .error e
    | .ok (first, after) => chainFrom operator? operand room first after

def expression (room : Nat) (operand : Reader Expr) : Reader Expr :=
  chain orOperator? room <| chain andOperator? room <| chain sumOperator? room <|
    chain productOperator? room operand

def argument (inner : Reader Expr) : Reader Expr
  | .symbol .comma :: rest => fail .emptyArgument (.symbol .comma :: rest)
  | .symbol .closing :: rest => fail .emptyArgument (.symbol .closing :: rest)
  | ahead => inner ahead

/-- Goes on behind an argument, `read` holding the arguments so far, the latest first. -/
def argumentsFrom (inner : Reader Expr) : Nat → List Expr → Reader (List Expr)
  | room + 1, read, .symbol .comma :: rest =>
    match argument inner rest with
    | .error e => .error e
    | .ok (next, after) => argumentsFrom inner room (next :: read) after
  | _, read, ahead => .ok (read.reverse, ahead)

def arguments (room : Nat) (inner : Reader Expr) : Reader (List Expr)
  | .symbol .closing :: rest => .ok ([], .symbol .closing :: rest)
  | ahead =>
    match argument inner ahead with
    | .error e => .error e
    | .ok (first, after) => argumentsFrom inner room [first] after

/-! ## Operands -/

def primary (room : Nat) (inner : Reader Expr) : Reader Expr
  | .number n :: rest => .ok (.number n.value, rest)
  | .name f :: .symbol .opening :: rest =>
    match arguments room inner rest with
    | .error e => .error e
    | .ok (args, after) =>
      match close (.symbol .opening :: rest) after with
      | .error e => .error e
      | .ok after => .ok (.call f args, after)
  | .name n :: rest => .ok (.name n, rest)
  | .symbol .opening :: .symbol .closing :: rest => fail .emptyParentheses (.symbol .closing :: rest)
  | .symbol .opening :: rest =>
    match inner rest with
    | .error e => .error e
    | .ok (e, after) =>
      match close (.symbol .opening :: rest) after with
      | .error e => .error e
      | .ok after => .ok (.group e, after)
  | ahead => unexpected ahead

def power (room : Nat) (operand : Reader Expr) : Reader Expr := fun ahead =>
  match primary room (expression room operand) ahead with
  | .error e => .error e
  | .ok (_, .symbol .opening :: rest) => fail .calleeNotName (.symbol .opening :: rest)
  | .ok (base, .symbol .caret :: rest) =>
    match operand rest with
    | .error e => .error e
    | .ok (exponent, after) => .ok (.binary .pow base exponent, after)
  | .ok (base, after) => .ok (base, after)

/-- An operand of a product, at most so many levels of nesting deep. -/
def operand (room : Nat) : Nat → Reader Expr
  | 0, ahead => fail .tooDeep ahead
  | limit + 1, .symbol s :: rest =>
    match sign? s with
    | some sign =>
      match operand room limit rest with
      | .error e => .error e
      | .ok (e, after) => .ok (.signed sign e, after)
    | none => power room (operand room limit) (.symbol s :: rest)
  | limit + 1, ahead => power room (operand room limit) ahead

end Reader

/-! ## Whole texts -/

/-- The expression that a list of lexemes spells, nested no deeper than the limit. -/
def Expr.ofLexemes (limit : Nat) (lexemes : List Lexeme) : Except GrammarError Expr :=
  match lexemes with
  | [] => Reader.fail .emptyExpression []
  | _ =>
    let room := lexemes.length
    match Reader.expression room (Reader.operand room limit) lexemes with
    | .error e => .error e
    | .ok (e, []) => .ok e
    | .ok (_, ahead) => Reader.unexpected ahead

inductive ParseError where
  | lexical (error : LexicalError)
  | grammar (fault : GrammarFault) (column : Nat)
deriving DecidableEq, Inhabited, Repr

/-- What the reader of the text is told. Nothing is said of an integer that is too long, which is no fault
of the expression but a limit of number conversion. -/
def ParseError.diagnostic? : ParseError → Option Diagnostic
  | lexical ⟨.integerTooLong _, _⟩ => none
  | lexical ⟨fault, column⟩ => some ⟨.lexical, fault.message, some column⟩
  | grammar fault column => some ⟨.grammar, fault.message, some column⟩

/-- The column of the lexeme that has `ahead - 1` others behind it; with none ahead, that of the end. -/
def columnAhead (tokens : List Token) (finish ahead : Nat) : Nat :=
  match tokens.drop (tokens.length - ahead) with
  | t :: _ => t.column
  | [] => finish

def Expr.parseWithin (limit : Nat) (source : String) : Except ParseError Expr :=
  match tokens source with
  | .error e => .error (.lexical e)
  | .ok ts =>
    match Expr.ofLexemes limit (ts.map (·.lexeme)) with
    | .error e => .error (.grammar e.fault (columnAhead ts (endColumn source) e.ahead))
    | .ok e => .ok e

end Calculator
