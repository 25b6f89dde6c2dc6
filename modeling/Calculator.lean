import Calculator.Main
import Calculator.Proofs.Calculation.Chains
import Calculator.Proofs.Calculation.LetterCase
import Calculator.Proofs.Calculation.Limits
import Calculator.Proofs.Calculation.Outcome
import Calculator.Proofs.Calculation.Spacing
import Calculator.Proofs.CommandLine.Account
import Calculator.Proofs.CommandLine.Display
import Calculator.Proofs.CommandLine.Interleaving
import Calculator.Proofs.CommandLine.Usage
import Calculator.Proofs.Evaluation.CallOrder
import Calculator.Proofs.Evaluation.FunctionNames
import Calculator.Proofs.Evaluation.Invocations
import Calculator.Proofs.Evaluation.Preservation
import Calculator.Proofs.Evaluation.TwoRuns
import Calculator.Proofs.Expr.Dump
import Calculator.Proofs.Expr.Needless
import Calculator.Proofs.Grammar.Cursor
import Calculator.Proofs.Grammar.Splicing
import Calculator.Proofs.Grammar.Unmatched
import Calculator.Proofs.Number.Extremes
import Calculator.Proofs.Number.Fixed
import Calculator.Proofs.Number.FloorCeil
import Calculator.Proofs.Number.Integral
import Calculator.Proofs.Number.Spelling
import Calculator.Proofs.Token.Leftmost
import Calculator.Proofs.Token.Splitting
