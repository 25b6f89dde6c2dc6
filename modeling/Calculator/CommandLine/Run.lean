import Calculator.Calculation
import Calculator.CommandLine.Options
import Calculator.Expr.Dump
import Calculator.Text.Lines

/-!
# Runs of the command line

What a run writes to its two outputs and how it ends. Every expression contributes to both on its own,
and the contributions follow one another in the order of the expressions; an abort ends the run.
-/

namespace Calculator

inductive Ending where
  | exit (status : Nat)
  | abort (abort : Abort)
deriving DecidableEq, Inhabited

structure Report where
  output : String := ""
  errors : String := ""
  ending : Ending := .exit 0
deriving DecidableEq, Inhabited

/-- One report after another; the worse status counts, and nothing follows an abort. -/
def Report.append (a b : Report) : Report :=
  match a.ending with
  | .abort _ => a
  | .exit s => {
      output := a.output ++ b.output
      errors := a.errors ++ b.errors
      ending := match b.ending with
        | .abort x => .abort x
        | .exit t => .exit (max s t) }

def usage : String :=
  "calc [OPTIONS] [EXPR ...]\n" ++
  "\n" ++
  "Evaluate arithmetic expressions. Each EXPR is evaluated and printed on its\n" ++
  "own line; with no EXPR, each non-blank line of stdin is evaluated.\n" ++
  "\n" ++
  "Options:\n" ++
  "  --ast            Print the parsed tree instead of evaluating\n" ++
  "  --precision N    Print results with N digits after the decimal point\n" ++
  "  --verbose        Log parse and evaluation details to stderr\n" ++
  "  --help           Show this help message\n"

def maxPlaces : Nat := 2 ^ 31 - 1

def maxRequestedPlaces : Nat := 2 ^ 63 - 1

def formatResult (places : Option Nat) (x : Binary64) : Except Abort String :=
  match places with
  | none => .ok x.text
  | some n =>
    if maxRequestedPlaces < n then .error .tooManyPlaces
    else if maxPlaces < n then .error .precisionTooBig
    else .ok (x.fixed n)

/-! ## One expression -/

def entryReport (limits : Limits) (entry : LogEntry) : Report :=
  match entry.text limits with
  | .ok line => { errors := line ++ "\n" }
  | .error e => { ending := .abort (.unwritable e) }

def logReport (limits : Limits) (options : Options) (log : List LogEntry) : Report :=
  if options.verbose then (log.map (entryReport limits)).foldr Report.append {} else {}

def diagnosticLine (d : Diagnostic) : String := "calc: " ++ d.kind ++ ": " ++ d.text ++ "\n"

def failureReport : CalculationError → Report
  | .parse (.lexical ⟨.integerTooLong digits, _⟩) => { ending := .abort (.tooManyDigits digits) }
  | .evaluation (.raised error) => { ending := .abort (.refused error) }
  | e => { errors := (e.diagnostic?.map diagnosticLine).getD "", ending := .exit 1 }

def resultReport : Except Abort String → Report
  | .ok line => { output := line ++ "\n" }
  | .error a => { ending := .abort a }

def treeReport (limits : Limits) (options : Options) (source : String) : Report :=
  match Expr.parseWithin limits.reading source with
  | .error e => failureReport (.parse e)
  | .ok tree => (logReport limits options [.parsed source tree]).append
      (resultReport ((tree.dumpWithin limits.dump).mapError Abort.unwritable))

def valueReport (limits : Limits) (options : Options) (source : String) : Report :=
  let calculation := calculate limits source
  (logReport limits options calculation.log).append <|
    match calculation.outcome with
    | .error e => failureReport e
    | .ok x => resultReport (formatResult options.places x)

def expressionReport (limits : Limits) (options : Options) (source : String) : Report :=
  if options.showTree then treeReport limits options source else valueReport limits options source

/-! ## Whole runs -/

def runExpressions (limits : Limits) (options : Options) (done : Report) : List String → Report
  | [] => done
  | source :: rest =>
    match done.ending with
    | .abort _ => done
    | .exit _ => runExpressions limits options (done.append (expressionReport limits options source)) rest

/-- The run that a request asks for. The lines of the input are read only when no expression is given. -/
def Request.report (limits : Limits) (request : Request) (input : String) : Report :=
  match request with
  | .help => { output := usage }
  | .misuse e => { errors := "calc: " ++ e.message ++ "\n", ending := .exit 2 }
  | .abort a => { ending := .abort a }
  | .run options [] =>
    runExpressions limits options {} ((Text.strippedLines input.toList).map String.ofList)
  | .run options expressions => runExpressions limits options {} expressions

def runCommand (limits : Limits) (args : List String) (input : String) : Report :=
  (Request.ofArguments args).report limits input

end Calculator
