import Calculator.Proofs.CommandLine.Input

/-!
# Options among expressions

`interleaving_irrelevant`: a run depends on its options and on its expressions, each in their order, and not on how they
stand among one another. The arguments can be sorted into options, a terminator and expressions.
-/

namespace Calculator

/-! ## Sorting arguments -/

/-- The options in their order, precisions with their values. What stands behind the terminator is no option. -/
def optionArguments : List String → List String
  | [] => []
  | arg :: rest =>
    match Argument.classify arg with
    | .help | .showTree | .verbose | .unknownFlag => arg :: optionArguments rest
    | .precision =>
      match rest with
      | [] => [arg]
      | value :: rest => arg :: value :: optionArguments rest
    | .endOfFlags => []
    | .expression => optionArguments rest

/-- The expressions in their order: what is neither an option nor the value of one, and all behind the terminator. -/
def expressionArguments : List String → List String
  | [] => []
  | arg :: rest =>
    match Argument.classify arg with
    | .help | .showTree | .verbose | .unknownFlag => expressionArguments rest
    | .precision =>
      match rest with
      | [] => []
      | _ :: rest => expressionArguments rest
    | .endOfFlags => rest
    | .expression => arg :: expressionArguments rest

/-- An argument follows every precision up to the terminator. A terminator that follows one is its value and ends
nothing. -/
def precisionsHaveValues : List String → Bool
  | [] => true
  | arg :: rest =>
    match Argument.classify arg with
    | .help | .showTree | .verbose | .unknownFlag | .expression => precisionsHaveValues rest
    | .precision =>
      match rest with
      | [] => false
      | _ :: rest => precisionsHaveValues rest
    | .endOfFlags => true

theorem areOptions_optionArguments (args : List String) :
    areOptions (optionArguments args) = precisionsHaveValues args := by
  fun_induction precisionsHaveValues args with
  | case1 => rfl
  | case2 arg rest hc ih | case3 arg rest hc ih | case4 arg rest hc ih | case5 arg rest hc ih =>
    rw [optionArguments.eq_def]
    simp only [hc]
    rw [areOptions.eq_def]
    simp only [hc]
    exact ih
  | case6 arg rest hc ih =>
    rw [optionArguments.eq_def]
    simp only [hc]
    exact ih
  | case7 arg hc =>
    rw [optionArguments]
    simp only [hc]
    rw [areOptions]
    simp only [hc]
  | case8 arg hc value rest ih =>
    rw [optionArguments]
    simp only [hc]
    rw [areOptions]
    simp only [hc]
    exact ih
  | case9 arg rest hc =>
    rw [optionArguments.eq_def]
    simp only [hc]
    rfl

/-! ## Requests -/

theorem scan_eq_adding (options : Options) (found args : List String) :
    Request.scan options found args =
      (Request.scan options [] (optionArguments args)).adding (found.reverse ++ expressionArguments args) := by
  fun_induction Request.scan options found args with
  | case1 options found =>
    rw [optionArguments, expressionArguments, List.append_nil]
    rfl
  -- what cannot be understood, and help, decide the request before any expression counts
  | case2 options found arg rest hc | case10 options found arg rest hc =>
    rw [optionArguments.eq_def]
    simp only [hc]
    rw [Request.scan.eq_def]
    simp only [hc]
    rfl
  | case3 options found arg rest hc ih | case4 options found arg rest hc ih =>
    rw [optionArguments.eq_def, expressionArguments.eq_def]
    simp only [hc]
    rw [Request.scan.eq_def options]
    simp only [hc]
    exact ih
  | case5 options found arg hc =>
    rw [optionArguments]
    simp only [hc]
    rw [Request.scan]
    simp only [hc]
    rfl
  | case6 options found arg hc value rest e he | case7 options found arg hc value rest e he =>
    rw [optionArguments]
    simp only [hc]
    rw [Request.scan]
    simp only [hc, he]
    rfl
  | case8 options found arg hc value rest n hn ih =>
    rw [optionArguments, expressionArguments]
    simp only [hc]
    rw [Request.scan]
    simp only [hc, hn]
    exact ih
  | case9 options found arg rest hc =>
    rw [optionArguments.eq_def, expressionArguments.eq_def]
    simp only [hc]
    rfl
  | case11 options found arg rest hc ih =>
    rw [optionArguments.eq_def, expressionArguments.eq_def]
    simp only [hc]
    rw [ih, List.reverse_cons, List.append_assoc]
    rfl

theorem ofArguments_sorted {args : List String} (h : precisionsHaveValues args = true) :
    Request.ofArguments (optionArguments args ++ "--" :: expressionArguments args) = Request.ofArguments args := by
  rw [← areOptions_optionArguments] at h
  rw [ofArguments_options h, Request.ofArguments, Request.ofArguments, scan_eq_adding {} [] args]
  rfl

theorem interleaving_irrelevant (limits : Limits) {args : List String} (h : precisionsHaveValues args = true)
    (input : String) : runCommand limits args input =
      runCommand limits (optionArguments args ++ "--" :: expressionArguments args) input := by
  rw [runCommand, runCommand, ofArguments_sorted h]

/-- An option behind expressions holds for them; a flag behind the terminator is one of them and needs no value. -/
theorem interleaving_irrelevant_flag_behind_terminator :
    precisionsHaveValues ["x", "--precision", "5", "-y", "--ast", "--", "--precision"] = true ∧
      optionArguments ["x", "--precision", "5", "-y", "--ast", "--", "--precision"] = ["--precision", "5", "--ast"] ∧
      expressionArguments ["x", "--precision", "5", "-y", "--ast", "--", "--precision"] = ["x", "-y", "--precision"] ∧
      runCommand ⟨100, 100, 100, 100⟩ ["x", "--precision", "5", "-y", "--ast", "--", "--precision"] "" =
        { output := "x\n(neg y)\n(neg (neg precision))\n" } := by
  have hvalues : precisionsHaveValues ["x", "--precision", "5", "-y", "--ast", "--", "--precision"] = true := by decide
  exact ⟨hvalues, by decide, by decide, (interleaving_irrelevant ⟨100, 100, 100, 100⟩ hvalues "").trans (by rfl)⟩

end Calculator
