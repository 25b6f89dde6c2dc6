import Calculator.Expr.Parser

/-!
# The grammar of expressions

Derivations are the concrete trees of the grammar

    Expr    = BitOr
    BitOr   = BitAnd ( '|' BitAnd )*
    BitAnd  = Sum ( '&' Sum )*
    Sum     = Product ( ( '+' | '-' ) Product )*
    Product = Unary ( ( '*' | '/' | '%' ) Unary )*
    Unary   = ( '+' | '-' ) Unary | Power
    Power   = Primary ( '^' Unary )?
    Primary = NUMBER | IDENT | IDENT '(' [ BitOr ( ',' BitOr )* ] ')' | '(' BitOr ')'

`lexemes` is what a derivation derives and `value` what it builds. A repetition is a nonterminal of its
own, so that a derivation keeps every choice that the grammar leaves.
-/

namespace Calculator.Grammar

/-! ## Nonterminals -/

inductive Tier where
  | bitOr
  | bitAnd
  | sum
  | product
deriving DecidableEq

inductive Phrase where
  | chain (tier : Tier)
  | unary
  | power
  | primary
deriving DecidableEq

inductive Nonterminal where
  | phrase (p : Phrase)
  /-- The repetition behind the first operand of a chain. -/
  | more (tier : Tier)
  | arguments
  /-- The repetition behind the first argument of a call. -/
  | moreArguments
deriving DecidableEq

/-- What the operators of a tier stand between. -/
def Tier.operand : Tier → Phrase
  | bitOr => .chain .bitAnd
  | bitAnd => .chain .sum
  | sum => .chain .product
  | product => .unary

inductive Joins : Tier → Symbol → Operator → Prop
  | bar : Joins .bitOr .bar .bitOr
  | ampersand : Joins .bitAnd .ampersand .bitAnd
  | plus : Joins .sum .plus .add
  | minus : Joins .sum .minus .sub
  | star : Joins .product .star .mul
  | slash : Joins .product .slash .div
  | percent : Joins .product .percent .mod

inductive Signs : Symbol → Sign → Prop
  | plus : Signs .plus .plus
  | minus : Signs .minus .minus

abbrev Nonterminal.Value : Nonterminal → Type
  | phrase _ => Expr
  | more _ => List (Operator × Expr)
  | arguments => List Expr
  | moreArguments => List Expr

@[simp] def Nonterminal.trees : (nt : Nonterminal) → nt.Value → List Expr
  | phrase _, e => [e]
  | more _, links => links.map (·.2)
  | arguments, es => es
  | moreArguments, es => es

/-! ## Derivations -/

inductive Derivation : Nonterminal → Type
  | chain {tier : Tier} (first : Derivation (.phrase tier.operand)) (more : Derivation (.more tier)) :
      Derivation (.phrase (.chain tier))
  | done {tier : Tier} : Derivation (.more tier)
  | link {tier : Tier} (s : Symbol) (op : Operator) (joins : Joins tier s op)
      (right : Derivation (.phrase tier.operand)) (more : Derivation (.more tier)) : Derivation (.more tier)
  | signed (s : Symbol) (sign : Sign) (signs : Signs s sign) (operand : Derivation (.phrase .unary)) :
      Derivation (.phrase .unary)
  | unsigned (power : Derivation (.phrase .power)) : Derivation (.phrase .unary)
  | plain (base : Derivation (.phrase .primary)) : Derivation (.phrase .power)
  | raised (base : Derivation (.phrase .primary)) (exponent : Derivation (.phrase .unary)) :
      Derivation (.phrase .power)
  | number (n : Numeral) : Derivation (.phrase .primary)
  | name (n : String) : Derivation (.phrase .primary)
  | call (f : String) (args : Derivation .arguments) : Derivation (.phrase .primary)
  | group (inner : Derivation (.phrase (.chain .bitOr))) : Derivation (.phrase .primary)
  | noArguments : Derivation .arguments
  | someArguments (first : Derivation (.phrase (.chain .bitOr))) (more : Derivation .moreArguments) :
      Derivation .arguments
  | noMore : Derivation .moreArguments
  | oneMore (arg : Derivation (.phrase (.chain .bitOr))) (more : Derivation .moreArguments) :
      Derivation .moreArguments

abbrev Derivation.Expression : Type := Derivation (.phrase (.chain .bitOr))

/-- A chain leans to the left. -/
def joinAll (left : Expr) (links : List (Operator × Expr)) : Expr :=
  links.foldl (fun left link => .binary link.1 left link.2) left

namespace Derivation

@[simp] def lexemes : {nt : Nonterminal} → Derivation nt → List Lexeme
  | _, chain first more => first.lexemes ++ more.lexemes
  | _, done => []
  | _, link s _ _ right more => .symbol s :: (right.lexemes ++ more.lexemes)
  | _, signed s _ _ operand => .symbol s :: operand.lexemes
  | _, unsigned power => power.lexemes
  | _, plain base => base.lexemes
  | _, raised base exponent => base.lexemes ++ .symbol .caret :: exponent.lexemes
  | _, number n => [.number n]
  | _, name n => [.name n]
  | _, call f args => .name f :: .symbol .opening :: (args.lexemes ++ [.symbol .closing])
  | _, group inner => .symbol .opening :: (inner.lexemes ++ [.symbol .closing])
  | _, noArguments => []
  | _, someArguments first more => first.lexemes ++ more.lexemes
  | _, noMore => []
  | _, oneMore arg more => .symbol .comma :: (arg.lexemes ++ more.lexemes)

@[simp] def value : {nt : Nonterminal} → Derivation nt → nt.Value
  | _, chain first more => joinAll first.value more.value
  | _, done => []
  | _, link _ op _ right more => (op, right.value) :: more.value
  | _, signed _ sign _ operand => .signed sign operand.value
  | _, unsigned power => power.value
  | _, plain base => base.value
  | _, raised base exponent => .binary .pow base.value exponent.value
  | _, number n => .number n.value
  | _, name n => .name n
  | _, call f args => .call f args.value
  | _, group inner => .group inner.value
  | _, noArguments => []
  | _, someArguments first more => first.value :: more.value
  | _, noMore => []
  | _, oneMore arg more => arg.value :: more.value

end Derivation

/-! ## First lexemes -/

def startsPrimary : Lexeme → Bool
  | .number _ => true
  | .name _ => true
  | .symbol s => s == .opening

def startsOperand : Lexeme → Bool
  | .symbol .plus => true
  | .symbol .minus => true
  | l => startsPrimary l

end Calculator.Grammar
