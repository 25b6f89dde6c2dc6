import Calculator.CommandLine.Run

/-!
# The program

Arguments in, the two outputs and the exit status out.
-/

open Calculator

def readsInput : Request → Bool
  | .run _ [] => true
  | _ => false

/-- Estimates for an ordinary stack, of which a level takes more or less according to what is nested. -/
def stackLimits : Limits := { reading := 1000, evaluation := 1000, description := 327, dump := 992 }

def main (args : List String) : IO UInt32 := do
  let request := Request.ofArguments args
  let input ← if readsInput request then (← IO.getStdin).readToEnd else pure ""
  let report := request.report stackLimits input
  IO.print report.output
  IO.eprint report.errors
  match report.ending with
  | .exit status => return UInt32.ofNat status
  | .abort a =>
    IO.eprintln ("calc: " ++ a.message)
    return 1
