import Calculator.Proofs.CommandLine.Account
import Calculator.Proofs.Text.Lines

/-!
# Input and arguments

`input_agrees_with_arguments`: options alone take their expressions from the lines of the input, and the run is the one
in which these lines stand behind the options as arguments.
-/

namespace Calculator

/-- Nothing but options, none of them without its value. -/
def areOptions : List String → Bool
  | [] => true
  | arg :: rest =>
    match Argument.classify arg with
    | .help | .showTree | .verbose | .unknownFlag => areOptions rest
    | .precision =>
      match rest with
      | [] => false
      | _ :: rest => areOptions rest
    | .endOfFlags | .expression => false

def Request.adding (request : Request) (xs : List String) : Request :=
  match request with
  | .run options found => .run options (found ++ xs)
  | other => other

section
variable {args : List String} (h : areOptions args = true)
include h

theorem scan_options (options : Options) (found xs : List String) :
    Request.scan options found (args ++ "--" :: xs) = (Request.scan options found args).adding xs := by
  have hend : Argument.classify "--" = .endOfFlags := by decide
  fun_induction Request.scan options found args with
  | case1 options found =>
    rw [List.nil_append, Request.scan.eq_def]
    simp only [hend]
    rfl
  | case2 options found arg rest hc =>
    rw [List.cons_append, Request.scan.eq_def]
    simp only [hc]
    rfl
  | case3 options found arg rest hc ih | case4 options found arg rest hc ih =>
    rw [areOptions.eq_def] at h
    simp only [hc] at h
    rw [List.cons_append, Request.scan.eq_def]
    simp only [hc]
    exact ih h
  | case5 options found arg hc =>
    rw [areOptions] at h
    simp only [hc] at h
    cases h
  | case6 options found arg hc value rest e he | case7 options found arg hc value rest e he =>
    rw [List.cons_append, List.cons_append, Request.scan.eq_def]
    simp only [hc, he]
    rfl
  | case8 options found arg hc value rest n hn ih =>
    rw [areOptions] at h
    simp only [hc] at h
    rw [List.cons_append, List.cons_append, Request.scan.eq_def]
    simp only [hc, hn]
    exact ih h
  | case9 options found arg rest hc | case11 options found arg rest hc =>
    rw [areOptions.eq_def] at h
    simp only [hc] at h
    cases h
  | case10 options found arg rest hc =>
    rw [List.cons_append, Request.scan.eq_def]
    simp only [hc]
    rfl

theorem found_of_options {options options' : Options} {found found' : List String}
    (hrun : Request.scan options found args = .run options' found') : found' = found.reverse := by
  fun_induction Request.scan options found args with
  | case1 options found =>
    cases hrun
    rfl
  | case2 | case5 | case6 | case7 | case10 => cases hrun
  | case3 options found arg rest hc ih | case4 options found arg rest hc ih =>
    rw [areOptions.eq_def] at h
    simp only [hc] at h
    exact ih h hrun
  | case8 options found arg hc value rest n hn ih =>
    rw [areOptions] at h
    simp only [hc] at h
    exact ih h hrun
  | case9 options found arg rest hc | case11 options found arg rest hc =>
    rw [areOptions.eq_def] at h
    simp only [hc] at h
    cases h

theorem ofArguments_options (xs : List String) :
    Request.ofArguments (args ++ "--" :: xs) = (Request.ofArguments args).adding xs :=
  scan_options h {} [] xs

end

theorem report_run_input (limits : Limits) (options : Options) {input : String} {entries : List String}
    (h : Text.Enters input entries) :
    (Request.run options []).report limits input = runExpressions limits options {} entries := by
  rw [Text.enters_iff.mp h]
  rfl

theorem report_run_arguments (limits : Limits) (options : Options) {xs : List String} (h : xs ≠ []) (input : String) :
    (Request.run options xs).report limits input = runExpressions limits options {} xs := by
  cases xs with
  | nil => exact absurd rfl h
  | cons x xs => rfl

theorem input_agrees_with_arguments (limits : Limits) {args : List String} (h : areOptions args = true)
    (input : String) :
    (∃! entries, Text.Enters input entries) ∧ ∀ entries, Text.Enters input entries →
      (entries ≠ [] → ∀ input', runCommand limits args input = runCommand limits (args ++ "--" :: entries) input') ∧
      (entries = [] → ∀ options found, Request.ofArguments args = .run options found →
        runCommand limits args input = { output := "", errors := "", ending := .exit 0 }) := by
  refine ⟨Text.existsUnique_enters input, fun entries hentries => ⟨fun hne input' => ?_, ?_⟩⟩
  · rw [runCommand, runCommand, ofArguments_options h]
    cases hrequest : Request.ofArguments args with
    | run options found =>
      obtain rfl : found = [] := found_of_options h hrequest
      rw [report_run_input limits options hentries]
      exact (report_run_arguments limits options hne input').symm
    -- nothing else looks at the input
    | _ => rfl
  · rintro rfl options found hrequest
    obtain rfl : found = [] := found_of_options h hrequest
    rw [runCommand, hrequest, report_run_input limits options hentries]
    rfl

/-- A separator that ends no line, an empty line, a carriage return alone and a line that reads like a flag. -/
theorem input_agrees_with_arguments_mixed_ends :
    areOptions ["--ast"] = true ∧
      Text.Enters "x\r\n\u2028 \r\x0C--ast\u2028\n\n -x + " ["x", "--ast", "-x +"] ∧
      runCommand ⟨100, 100, 100, 100⟩ ["--ast"] "x\r\n\u2028 \r\x0C--ast\u2028\n\n -x + " = {
        output := "x\n(neg (neg ast))\n"
        errors := "calc: syntax error: unexpected end of input at col 5\n"
        ending := .exit 1 } := by
  have hentries : Text.Enters "x\r\n\u2028 \r\x0C--ast\u2028\n\n -x + " ["x", "--ast", "-x +"] :=
    Text.enters_iff.mpr (by decide +kernel)
  have hoptions : areOptions ["--ast"] = true := by decide
  have hagrees :=
    (input_agrees_with_arguments ⟨100, 100, 100, 100⟩ hoptions "x\r\n\u2028 \r\x0C--ast\u2028\n\n -x + ").2
  exact ⟨hoptions, hentries, ((hagrees _ hentries).1 (by decide) "").trans (by rfl)⟩

end Calculator
