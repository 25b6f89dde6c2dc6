import Calculator.Decimal.Numeral

/-!
# Lexemes and tokens

The smallest pieces of expression text: numerals, names, and eleven one-character symbols. A token is
a lexeme together with the column at which it stands. It is handed on raw, its type and its text as strings.
-/

namespace Calculator

inductive Symbol where
  | plus | minus | star | slash | percent | ampersand | bar | caret | opening | closing | comma
deriving DecidableEq, Inhabited, Repr

namespace Symbol

def all : List Symbol :=
  [plus, minus, star, slash, percent, ampersand, bar, caret, opening, closing, comma]

def char : Symbol → Char
  | plus => '+'
  | minus => '-'
  | star => '*'
  | slash => '/'
  | percent => '%'
  | ampersand => '&'
  | bar => '|'
  | caret => '^'
  | opening => '('
  | closing => ')'
  | comma => ','

def ofChar? (c : Char) : Option Symbol := all.find? (·.char == c)

theorem mem_all (s : Symbol) : s ∈ all := by cases s <;> decide

theorem ofChar?_char (s : Symbol) : ofChar? s.char = some s := by cases s <;> decide

end Symbol

inductive Lexeme where
  | number (numeral : Numeral)
  | name (text : String)
  | symbol (symbol : Symbol)
deriving DecidableEq, Inhabited, Repr

def Lexeme.text : Lexeme → String
  | number n => n.text
  | name n => n
  | symbol s => String.singleton s.char

structure Token where
  lexeme : Lexeme
  /-- The place of its first character, counted from 1. -/
  column : Nat
deriving DecidableEq, Inhabited, Repr

structure RawToken where
  type : String
  value : String
  column : Nat
deriving DecidableEq, Inhabited, Repr

def Lexeme.type : Lexeme → String
  | number _ => "NUMBER"
  | name _ => "IDENT"
  | symbol _ => "OP"

def Token.raw (t : Token) : RawToken := ⟨t.lexeme.type, t.lexeme.text, t.column⟩

end Calculator
