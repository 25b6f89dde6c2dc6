import Calculator.Binary64.Machine
import Calculator.Expr.Printer
import Calculator.Text.DecimalDigit
import Calculator.Token.Lexer

/-!
# Command-line arguments

Arguments are flags, each meaning the same wherever it stands, and expressions. A lone `--` makes every
argument behind it an expression; a single minus makes no flag, since it may begin a negative number.
The first argument that asks for help or cannot be understood decides the whole request.
-/

namespace Calculator

/-- What ends a run without a diagnostic. -/
inductive Abort where
  | tooManyDigits (digits : Nat)
  | notAnInteger (text : String)
  | precisionTooBig
  | tooManyPlaces
  | unwritable (error : WriteError)
  | refused (error : MathError)
deriving DecidableEq, Inhabited

def Abort.message : Abort → String
  | tooManyDigits digits => Calculator.tooManyDigits digits
  | notAnInteger text =>
    "invalid literal for int() with base 10: " ++
      String.ofList ((Text.quotedChars text.toList).take 200)
  | precisionTooBig => "precision too big"
  | tooManyPlaces => "Too many decimal digits in format string"
  | unwritable error => error.message
  | refused error => error.message

inductive UsageError where
  | precisionMissing
  | precisionInvalid (value : String)
  | unknownFlag (flag : String)
deriving DecidableEq, Inhabited, Repr

def UsageError.message : UsageError → String
  | precisionMissing => "--precision requires a value"
  | precisionInvalid value => "invalid precision '" ++ value ++ "'"
  | unknownFlag flag => "unknown flag '" ++ flag ++ "'"

structure Options where
  showTree : Bool := false
  verbose : Bool := false
  /-- How many digits stand after the point; the shortest decimal is shown when none are asked for. -/
  places : Option Nat := none
deriving DecidableEq, Inhabited, Repr

/-! ## Single arguments -/

inductive Argument where
  | help
  | showTree
  | verbose
  | precision
  | endOfFlags
  | unknownFlag
  | expression
deriving DecidableEq, Inhabited, Repr

def Argument.classify (arg : String) : Argument :=
  if arg = "--help" ∨ arg = "-h" then help
  else if arg = "--ast" then showTree
  else if arg = "--verbose" ∨ arg = "-v" then verbose
  else if arg = "--precision" then precision
  else if arg = "--" then endOfFlags
  else if arg.toList.take 2 = ['-', '-'] then unknownFlag
  else expression

inductive PrecisionError where
  | usage (error : UsageError)
  | abort (abort : Abort)
deriving DecidableEq, Inhabited

/-- A precision is written in decimal digits of any script. Digits that are not decimal pass for digits
but cannot be converted. -/
def readPrecision (value : String) : Except PrecisionError Nat :=
  let digits := value.toList
  let decimal := digits.takeWhile Text.isDecimal
  if digits.isEmpty || !digits.all Text.isDigit then .error (.usage (.precisionInvalid value))
  else if maxIntegerDigits < decimal.length then .error (.abort (.tooManyDigits decimal.length))
  else if decimal.length < digits.length then .error (.abort (.notAnInteger value))
  else .ok (digits.foldl (fun n c => 10 * n + (Text.digitValue? c).getD 0) 0)

/-! ## Whole argument lists -/

inductive Request where
  | help
  | misuse (error : UsageError)
  | abort (abort : Abort)
  | run (options : Options) (expressions : List String)
deriving DecidableEq, Inhabited

/-- Goes on reading arguments, with the options set and the expressions found so far, the latest first. -/
def Request.scan (options : Options) (found : List String) : List String → Request
  | [] => run options found.reverse
  | arg :: rest =>
    match Argument.classify arg with
    | .help => help
    | .showTree => scan { options with showTree := true } found rest
    | .verbose => scan { options with verbose := true } found rest
    | .precision =>
      match rest with
      | [] => misuse .precisionMissing
      | value :: rest =>
        match readPrecision value with
        | .error (.usage e) => misuse e
        | .error (.abort a) => abort a
        | .ok n => scan { options with places := some n } found rest
    | .endOfFlags => run options (found.reverse ++ rest)
    | .unknownFlag => misuse (.unknownFlag arg)
    | .expression => scan options (arg :: found) rest

def Request.ofArguments (args : List String) : Request := scan {} [] args

end Calculator
