import Calculator.Diagnostic
import Calculator.Text.Quoted
import Calculator.Token.Basic

/-!
# Reading lexemes

`tokens` splits a text into its lexemes, longest first at every place, with blanks allowed between them.
A run that starts like a numeral extends over all letters, digits, underscores and points that follow,
and is malformed unless the whole of it is a numeral; a numeral without a point is an integer, which
has to fit into 63 bits. Reading stops at the leftmost fault.
-/

namespace Calculator

def isSpace (c : Char) : Bool := c == ' ' || c == '\t' || c == '\r' || c == '\n'

def isNameStart (c : Char) : Bool := c.isAlpha || c == '_'

def isNameChar (c : Char) : Bool := isNameStart c || c.isDigit

/-- The characters that a numeral may not run into. -/
def isRunChar (c : Char) : Bool := isNameChar c || c == '.'

def isNumeralStart (c : Char) : Bool := c.isDigit || c == '.'

/-- The number of digits beyond which no integer is converted, leading zeros counted. -/
def maxIntegerDigits : Nat := 4300

def tooManyDigits (digits : Nat) : String :=
  "Exceeds the limit (4300 digits) for integer string conversion: value has " ++ toString digits ++
    " digits; use sys.set_int_max_str_digits() to increase the limit"

inductive LexicalFault where
  | unexpectedCharacter (c : Char)
  | malformedNumber (text : String)
  | integerOutOfRange (text : String)
  | integerTooLong (digits : Nat)
deriving DecidableEq, Inhabited, Repr

def LexicalFault.message : LexicalFault → String
  | unexpectedCharacter c => "unexpected character " ++ Text.quoted (String.singleton c)
  | malformedNumber text => "malformed number '" ++ text ++ "'"
  | integerOutOfRange text => "integer literal out of range '" ++ text ++ "'"
  | integerTooLong digits => tooManyDigits digits

structure LexicalError where
  fault : LexicalFault
  column : Nat
deriving DecidableEq, Inhabited, Repr

def Numeral.ofChars? (run : List Char) : Option Numeral :=
  let whole := run.takeWhile Char.isDigit
  match run.dropWhile Char.isDigit with
  | [] => if whole.isEmpty then none else some ⟨whole, none⟩
  | '.' :: after =>
    if after.all Char.isDigit && !(whole.isEmpty && after.isEmpty) then some ⟨whole, some after⟩ else none
  | _ => none

/-- What a run that is no numeral is called: a point that no digit follows stands alone. -/
def malformedText (run : List Char) : List Char :=
  match run with
  | '.' :: c :: _ => if c.isDigit then run else ['.']
  | _ => run

def Numeral.check (n : Numeral) : Except LexicalFault Lexeme :=
  match n.fraction with
  | some _ => .ok (.number n)
  | none =>
    if maxIntegerDigits < n.whole.length then .error (.integerTooLong n.whole.length)
    else if maxInteger < Nat.ofDigitChars 10 n.whole 0 then .error (.integerOutOfRange n.text)
    else .ok (.number n)

def readNumeral (cs : List Char) : Except LexicalFault Lexeme :=
  let run := cs.takeWhile isRunChar
  match Numeral.ofChars? run with
  | some n => n.check
  | none => .error (.malformedNumber (String.ofList (malformedText run)))

def Lexeme.read (c : Char) (rest : List Char) : Except LexicalFault Lexeme :=
  if isNumeralStart c then readNumeral (c :: rest)
  else if isNameStart c then .ok (.name (String.ofList ((c :: rest).takeWhile isNameChar)))
  else match Symbol.ofChar? c with
    | some s => .ok (.symbol s)
    | none => .error (.unexpectedCharacter c)

/-- Reads on at a column. The next `covered` characters belong to a lexeme already read; `read` holds
the tokens so far, the latest first. -/
def tokensFrom (read : List Token) (column covered : Nat) : List Char → Except LexicalError (List Token)
  | [] => .ok read.reverse
  | c :: rest =>
    match covered with
    | covered + 1 => tokensFrom read (column + 1) covered rest
    | 0 =>
      if isSpace c then tokensFrom read (column + 1) 0 rest
      else match Lexeme.read c rest with
        | .error fault => .error ⟨fault, column⟩
        | .ok lexeme =>
          tokensFrom (⟨lexeme, column⟩ :: read) (column + 1) (lexeme.text.length - 1) rest

def tokens (source : String) : Except LexicalError (List Token) := tokensFrom [] 1 0 source.toList

def endColumn (source : String) : Nat := source.length + 1

def tokenize (source : String) : Except LexicalError (List RawToken) :=
  (tokens source).map fun ts => ts.map Token.raw ++ [⟨"EOF", "", endColumn source⟩]

end Calculator
