import Calculator.Proofs.Calculation.Outcome
import Calculator.Proofs.CommandLine.Messages

/-!
# What a run accounts for

`runCommand_accounts`: a run writes one line for every expression, in their order, up to the first that cannot be
accounted for at all. What an expression adds depends on the options and on nothing that stands beside it.
`lines_of_run`: both outputs can be split into these lines again.
-/

namespace Calculator

/-! ## Reports one after another -/

namespace Report

theorem empty_append (a : Report) : append {} a = a := by
  obtain ⟨output, errors, ending⟩ := a
  cases ending <;> simp [append]

theorem append_empty (a : Report) : a.append {} = a := by
  obtain ⟨output, errors, ending⟩ := a
  cases ending <;> simp [append]

theorem append_assoc (a b c : Report) : (a.append b).append c = a.append (b.append c) := by
  obtain ⟨_, _, s | _⟩ := a
  · obtain ⟨_, _, t | _⟩ := b
    · obtain ⟨_, _, u | _⟩ := c <;> simp [append, String.append_assoc, Nat.max_assoc]
    · simp [append]
  · rfl

end Report

/-! ## One expression -/

/-- What becomes of an expression. -/
inductive Upshot where
  | shown (line : String)
  | failed (d : Diagnostic)
  | aborted (a : Abort)
deriving DecidableEq

namespace Upshot

def ofParseError : ParseError → Upshot
  | .lexical ⟨.integerTooLong digits, _⟩ => aborted (.tooManyDigits digits)
  | .lexical ⟨fault, column⟩ => failed ⟨.lexical, fault.message, some column⟩
  | .grammar fault column => failed ⟨.grammar, fault.message, some column⟩

-- an evaluation error without a category is one that is raised
def ofError : CalculationError → Upshot
  | .parse e => ofParseError e
  | .evaluation (.raised error) => aborted (.refused error)
  | .evaluation e => failed ⟨e.category?.getD .evaluation, e.message, none⟩

def ofText : Except Abort String → Upshot
  | .ok line => shown line
  | .error a => aborted a

def line? : Upshot → Option String
  | shown line => some line
  | _ => none

def diagnostic? : Upshot → Option Diagnostic
  | failed d => some d
  | _ => none

def abort? : Upshot → Option Abort
  | aborted a => some a
  | _ => none

def IsOneLine : Upshot → Prop
  | shown line => Text.IsOneLine line
  | failed d => Text.IsOneLine d.kind ∧ Text.IsOneLine d.text
  | aborted _ => True

def report : Upshot → Report
  | shown line => { output := line ++ "\n" }
  | failed d => { errors := diagnosticLine d, ending := .exit 1 }
  | aborted a => { ending := .abort a }

end Upshot

def upshot (limits : Limits) (options : Options) (source : String) : Upshot :=
  if options.showTree then
    match Expr.parseWithin limits.reading source with
    | .error e => .ofParseError e
    | .ok tree => .ofText ((tree.dumpWithin limits.dump).mapError Abort.unwritable)
  else
    match (calculate limits source).outcome with
    | .error e => .ofError e
    | .ok x => .ofText (formatResult options.places x)

theorem failureReport_eq (e : CalculationError) : failureReport e = (Upshot.ofError e).report := by
  rcases e with ⟨⟨fault, column⟩ | ⟨fault, column⟩⟩ | e
  · cases fault <;> rfl
  · rfl
  · cases e <;> rfl

theorem resultReport_eq (text : Except Abort String) : resultReport text = (Upshot.ofText text).report := by
  cases text <;> rfl

section
variable {limits : Limits}

theorem expressionReport_quiet {options : Options} (hv : options.verbose = false) (source : String) :
    expressionReport limits options source = (upshot limits options source).report := by
  have hlog : ∀ log, logReport limits options log = {} := fun log => by rw [logReport, hv]; rfl
  unfold expressionReport upshot
  split
  · unfold treeReport
    cases Expr.parseWithin limits.reading source with
    | error e => exact failureReport_eq (.parse e)
    | ok tree =>
      simp only [hlog, Report.empty_append]
      exact resultReport_eq _
  · unfold valueReport
    simp only [hlog, Report.empty_append]
    cases (calculate limits source).outcome with
    | error e => exact failureReport_eq e
    | ok x => exact resultReport_eq _

end

theorem Upshot.ofError_diagnosed {e : CalculationError} {d : Diagnostic} (h : e.diagnostic? = some d) :
    ofError e = failed d := by
  rcases e with ⟨⟨fault, column⟩ | ⟨fault, column⟩⟩ | e
  · cases fault <;> cases h <;> rfl
  · cases h
    rfl
  · cases e <;> cases h <;> rfl

theorem Upshot.ofParseError_aborts {e : ParseError} {a : Abort} (h : (ofParseError e).abort? = some a) :
    ∃ digits, a = .tooManyDigits digits := by
  rcases e with ⟨fault, column⟩ | ⟨fault, column⟩
  · cases fault <;> cases h
    exact ⟨_, rfl⟩
  · cases h

/-! ## What can become of an expression -/

section
variable {limits : Limits} {options : Options} {source : String}

theorem upshot_of_parse_error {e : ParseError} (h : Expr.parseWithin limits.reading source = .error e) :
    upshot limits options source = .ofParseError e := by
  unfold upshot
  rw [calculate_of_parse_error h]
  simp only [h]
  split <;> rfl

theorem upshot_tree {t : Expr} (h : Expr.parseWithin limits.reading source = .ok t) (ht : options.showTree = true) :
    upshot limits options source =
      if t.height ≤ limits.dump then .shown t.dumpText else .aborted (.unwritable Expr.dumpOverflow) := by
  obtain ⟨ts, -, hs⟩ := Expr.settled_of_parse h
  unfold upshot
  simp only [if_pos ht, h, Expr.dumpWithin_eq limits.dump hs.wellFormed, roomFor]
  split <;> rfl

variable (options) in
theorem upshot_value {t : Expr} (h : Expr.parseWithin limits.reading source = .ok t) (ht : options.showTree = false) :
    (∃ e d, (t.evaluateWithin .standard limits.evaluation).outcome = .error e ∧ e.diagnostic? = some d ∧
        upshot limits options source = .failed d) ∨
      ∃ x, upshot limits options source = .ofText (formatResult options.places x) := by
  unfold upshot
  simp only [ht, if_neg Bool.false_ne_true, calculate_of_parse h]
  obtain ⟨ts, -, hs⟩ := Expr.settled_of_parse h
  cases he : (t.evaluateWithin .standard limits.evaluation).outcome with
  | error e =>
    obtain ⟨d, hd, -⟩ := EvalError.placeless (Expr.evaluate_error Builtin.isTotal_standard hs.wellFormed he)
    exact .inl ⟨e, d, rfl, hd, Upshot.ofError_diagnosed (e := .evaluation e) hd⟩
  | ok x => exact .inr ⟨x, rfl⟩

theorem formatResult_aborts {places : Option Nat} {x : Binary64} {a : Abort} (h : formatResult places x = .error a) :
    a = .precisionTooBig ∨ a = .tooManyPlaces := by
  unfold formatResult at h
  split at h
  · cases h
  · split at h
    · cases h
      exact .inr rfl
    · split at h
      · cases h
        exact .inl rfl
      · cases h

/-- Nothing that is computed ends a run. Numbers too long to be converted do, and what cannot be written. -/
theorem upshot_aborts {a : Abort} (h : (upshot limits options source).abort? = some a) :
    (∃ digits, a = .tooManyDigits digits) ∨ a = .precisionTooBig ∨ a = .tooManyPlaces ∨
      options.showTree = true ∧ a = .unwritable Expr.dumpOverflow ∧
        ∃ t, Expr.parseWithin limits.reading source = .ok t ∧ limits.dump < t.height := by
  cases hp : Expr.parseWithin limits.reading source with
  | error e =>
    rw [upshot_of_parse_error hp] at h
    exact .inl (Upshot.ofParseError_aborts h)
  | ok t =>
    cases ht : options.showTree with
    | true =>
      rw [upshot_tree hp ht] at h
      split at h
      · cases h
      · rename_i hdeep
        cases h
        exact .inr (.inr (.inr ⟨rfl, rfl, t, rfl, Nat.lt_of_not_le hdeep⟩))
    | false =>
      rcases upshot_value options hp ht with ⟨e, d, -, -, hfailed⟩ | ⟨x, hx⟩
      · rw [hfailed] at h
        cases h
      · rw [hx] at h
        cases hf : formatResult options.places x with
        | ok line =>
          rw [hf] at h
          cases h
        | error b =>
          rw [hf] at h
          cases h
          exact .inr ((formatResult_aborts hf).imp_right .inl)

/-! ## One line each -/

theorem ofParseError_isOneLine {e : ParseError} (h : Expr.parseWithin limits.reading source = .error e) :
    (Upshot.ofParseError e).IsOneLine := by
  have hline : ∀ d, e.diagnostic? = some d → (Upshot.failed d).IsOneLine := fun d hd =>
    ⟨isOneLine_kind _, isOneLine_of_parse_error h hd⟩
  rcases e with ⟨fault, column⟩ | ⟨fault, column⟩
  · cases fault with
    | integerTooLong digits => exact trivial
    | _ => exact hline _ rfl
  · exact hline _ rfl

theorem ofText_isOneLine {text : Except Abort String} (h : ∀ line, text = .ok line → Text.IsOneLine line) :
    (Upshot.ofText text).IsOneLine := by
  cases text with
  | ok line => exact h line rfl
  | error a => exact trivial

theorem isOneLine_diagnostic {t : Expr} (hw : t.isWellFormed = true) {limit : Nat} {e : EvalError}
    (he : (t.evaluateWithin .standard limit).outcome = .error e) {d : Diagnostic} (hd : e.diagnostic? = some d) :
    Text.IsOneLine d.kind ∧ Text.IsOneLine d.text := by
  obtain ⟨c, -, rfl⟩ := Option.map_eq_some_iff.mp hd
  exact ⟨isOneLine_kind c, isOneLine_located (Expr.isOneLine_of_evaluate hw he)⟩

variable (limits options source) in
theorem upshot_isOneLine : (upshot limits options source).IsOneLine := by
  cases hp : Expr.parseWithin limits.reading source with
  | error e =>
    rw [upshot_of_parse_error hp]
    exact ofParseError_isOneLine hp
  | ok t =>
    obtain ⟨ts, -, hs⟩ := Expr.settled_of_parse hp
    cases ht : options.showTree with
    | true =>
      rw [upshot_tree hp ht]
      split
      · exact Expr.isOneLine_dumpText hs.wellFormed
      · exact trivial
    | false =>
      rcases upshot_value options hp ht with ⟨e, d, he, hd, hfailed⟩ | ⟨x, hx⟩
      · rw [hfailed]
        exact isOneLine_diagnostic hs.wellFormed he hd
      · rw [hx]
        exact ofText_isOneLine fun line h => isOneLine_formatResult h

end

/-! ## Reports in sequence -/

def beforeAbort (upshots : List Upshot) : List Upshot := upshots.takeWhile (·.abort?.isNone)

def account (upshots : List Upshot) : Report where
  output := String.join (((beforeAbort upshots).filterMap (·.line?)).map (· ++ "\n"))
  errors := String.join (((beforeAbort upshots).filterMap (·.diagnostic?)).map diagnosticLine)
  ending := match upshots.findSome? (·.abort?) with
    | some a => .abort a
    | none => .exit (if upshots.any (·.diagnostic?.isSome) then 1 else 0)

theorem account_nil : account [] = {} := rfl

theorem account_shown (line : String) (us : List Upshot) : account (.shown line :: us) =
    ⟨line ++ "\n" ++ (account us).output, (account us).errors, (account us).ending⟩ :=
  congrArg (Report.mk · _ _) (String.join_cons ..)

theorem account_failed (d : Diagnostic) (us : List Upshot) : account (.failed d :: us) =
    ⟨(account us).output, diagnosticLine d ++ (account us).errors, match (account us).ending with
      | .abort a => .abort a
      | .exit t => .exit (max 1 t)⟩ := by
  have hending : (account (.failed d :: us)).ending = match (account us).ending with
      | .abort a => .abort a
      | .exit t => .exit (max 1 t) := by
    have habort : (Upshot.failed d :: us).findSome? (·.abort?) = us.findSome? (·.abort?) := rfl
    have hfailed : (Upshot.failed d :: us).any (·.diagnostic?.isSome) = true := rfl
    simp only [account, habort, hfailed]
    cases us.findSome? (·.abort?) with
    | some a => rfl
    | none => cases us.any (·.diagnostic?.isSome) <;> rfl
  rw [← hending]
  exact congrArg (Report.mk _ · _) (String.join_cons ..)

theorem account_cons (u : Upshot) (us : List Upshot) : account (u :: us) = u.report.append (account us) := by
  cases u with
  | shown line =>
    rw [account_shown]
    generalize account us = r
    obtain ⟨_, _, t | _⟩ := r <;> simp [Upshot.report, Report.append]
  | failed d =>
    rw [account_failed]
    generalize account us = r
    obtain ⟨_, _, t | _⟩ := r <;> simp [Upshot.report, Report.append]
  | aborted a => rfl

theorem account_append (us vs : List Upshot) : account (us ++ vs) = (account us).append (account vs) := by
  induction us with
  | nil => rw [List.nil_append, account_nil, Report.empty_append]
  | cons u us ih => rw [List.cons_append, account_cons, account_cons, ih, Report.append_assoc]

theorem account_exits (us : List Upshot) (h : ∀ u ∈ us, u.abort? = none) :
    ∃ status, (account us).ending = .exit status := by
  rw [account, List.findSome?_eq_none_iff.mpr h]
  exact ⟨_, rfl⟩

theorem lines_of_account {us : List Upshot} (h : ∀ u ∈ us, u.IsOneLine) :
    Text.lines (account us).output.toList = ((beforeAbort us).filterMap (·.line?)).map String.toList ∧
      Text.lines (account us).errors.toList = ((beforeAbort us).filterMap (·.diagnostic?)).map fun d =>
        ("calc: " ++ d.kind ++ ": " ++ d.text).toList := by
  have hbefore : ∀ u ∈ beforeAbort us, u.IsOneLine := fun u hu => h u (List.takeWhile_sublist _ |>.subset hu)
  constructor
  · refine Text.lines_joined fun line hline => ?_
    obtain ⟨u, hu, hl⟩ := List.mem_filterMap.mp hline
    have := hbefore u hu
    cases u with
    | shown shown =>
      cases hl
      exact this
    | _ => cases hl
  · have hlines : ∀ line ∈ ((beforeAbort us).filterMap (·.diagnostic?)).map fun d =>
        "calc: " ++ d.kind ++ ": " ++ d.text, Text.IsOneLine line := by
      intro line hline
      obtain ⟨d, hd, rfl⟩ := List.mem_map.mp hline
      obtain ⟨u, hu, hl⟩ := List.mem_filterMap.mp hd
      have := hbefore u hu
      cases u with
      | failed d =>
        cases hl
        simp only [Text.isOneLine_append]
        exact ⟨⟨⟨by decide, this.1⟩, by decide⟩, this.2⟩
      | _ => cases hl
    have := Text.lines_joined hlines
    rw [List.map_map, List.map_map] at this
    exact this

/-! ## Whole runs -/

theorem runExpressions_eq (limits : Limits) (options : Options) (sources : List String) : ∀ done : Report,
    runExpressions limits options done sources =
      done.append ((sources.map (expressionReport limits options)).foldr Report.append {}) := by
  induction sources with
  | nil =>
    intro done
    rw [runExpressions, List.map_nil, List.foldr_nil, Report.append_empty]
  | cons source rest ih =>
    intro done
    rw [runExpressions, List.map_cons, List.foldr_cons]
    cases hending : done.ending with
    | abort a => simp only [Report.append, hending]
    | exit status => rw [ih, Report.append_assoc]

theorem account_eq (us : List Upshot) : account us = (us.map Upshot.report).foldr Report.append {} := by
  induction us with
  | nil => rfl
  | cons u us ih => rw [account_cons, ih, List.map_cons, List.foldr_cons]

/-- The expressions of a run: those among the arguments or, if there are none, the lines of the input. -/
def Asks (args : List String) (input : String) (options : Options) (sources : List String) : Prop :=
  ∃ found, Request.ofArguments args = .run options found ∧
    sources = if found = [] then (Text.strippedLines input.toList).map String.ofList else found

section
variable {limits : Limits} {args : List String} {input : String} {options : Options} {sources : List String}

theorem runCommand_reports (h : Asks args input options sources) :
    runCommand limits args input = (sources.map (expressionReport limits options)).foldr Report.append {} := by
  obtain ⟨found, hrequest, rfl⟩ := h
  have hrun := fun sources => (runExpressions_eq limits options sources {}).trans (Report.empty_append _)
  rw [runCommand, hrequest]
  cases found with
  | nil => exact hrun _
  | cons source rest => exact hrun _

theorem runCommand_eq (h : Asks args input options sources) (hv : options.verbose = false) :
    runCommand limits args input = account (sources.map (upshot limits options)) := by
  have hquiet : expressionReport limits options = Upshot.report ∘ upshot limits options :=
    funext (expressionReport_quiet hv)
  rw [runCommand_reports h, account_eq, List.map_map, hquiet]

theorem lines_of_run (h : Asks args input options sources) (hv : options.verbose = false) :
    let written := beforeAbort (sources.map (upshot limits options))
    Text.lines (runCommand limits args input).output.toList = (written.filterMap (·.line?)).map String.toList ∧
      Text.lines (runCommand limits args input).errors.toList = (written.filterMap (·.diagnostic?)).map fun d =>
        ("calc: " ++ d.kind ++ ": " ++ d.text).toList := by
  rw [runCommand_eq h hv]
  exact lines_of_account (List.forall_mem_map.mpr fun source _ => upshot_isOneLine limits options source)

end

/-- The arguments that set the options can be had without the expressions. -/
theorem exists_flags {args : List String} {options found options' found'}
    (h : Request.scan options found args = .run options' found') :
    ∃ flags : List String, ∀ found xs,
      Request.scan options found (flags ++ "--" :: xs) = .run options' (found.reverse ++ xs) := by
  fun_induction Request.scan options found args with
  | case1 | case9 =>
    cases h
    exact ⟨[], fun found xs => rfl⟩
  | case2 | case5 | case6 | case7 | case10 => cases h
  | case3 options found arg rest hc ih | case4 options found arg rest hc ih =>
    obtain ⟨flags, hflags⟩ := ih h
    refine ⟨arg :: flags, fun found xs => ?_⟩
    rw [List.cons_append, Request.scan.eq_def]
    simp only [hc]
    exact hflags found xs
  | case8 options found arg hc value rest n hn ih =>
    obtain ⟨flags, hflags⟩ := ih h
    refine ⟨arg :: value :: flags, fun found xs => ?_⟩
    simp only [List.cons_append, Request.scan, hc, hn]
    exact hflags found xs
  | case11 options found arg rest hc ih => exact ih h

theorem exists_alone {args : List String} {input : String} {options : Options} {sources : List String}
    (h : Asks args input options sources) :
    ∃ alone : String → List String, ∀ source input', Asks (alone source) input' options [source] := by
  obtain ⟨found, hrequest, -⟩ := h
  obtain ⟨flags, hflags⟩ := exists_flags hrequest
  exact ⟨fun source => flags ++ ["--", source], fun source _ => ⟨[source], hflags [] [source], rfl⟩⟩

theorem runCommand_accounts {limits : Limits} {args : List String} {input : String} {options : Options}
    {sources : List String} (h : Asks args input options sources) (hv : options.verbose = false) :
    runCommand limits args input = account (sources.map (upshot limits options)) ∧
      (∀ source ∈ sources, (upshot limits options source).IsOneLine) ∧
      (∀ source a, (upshot limits options source).abort? = some a →
        (∃ digits, a = .tooManyDigits digits) ∨ a = .precisionTooBig ∨ a = .tooManyPlaces ∨
          options.showTree = true ∧ a = .unwritable Expr.dumpOverflow ∧
            ∃ t, Expr.parseWithin limits.reading source = .ok t ∧ limits.dump < t.height) ∧
      (∃ alone : String → List String, (∀ source input', Asks (alone source) input' options [source]) ∧
        runCommand limits args input =
          (sources.map fun source => runCommand limits (alone source) input).foldr Report.append {}) ∧
      ∀ {args₁ args₂ : List String} {input₁ input₂ : String} {xs ys : List String},
        Asks args₁ input₁ options xs → Asks args₂ input₂ options ys → sources = xs ++ ys →
        (∀ source ∈ sources, (upshot limits options source).abort? = none) →
        let run := runCommand limits args input
        let run₁ := runCommand limits args₁ input₁
        let run₂ := runCommand limits args₂ input₂
        run.output = run₁.output ++ run₂.output ∧ run.errors = run₁.errors ++ run₂.errors ∧
          ∃ m n, run₁.ending = .exit m ∧ run₂.ending = .exit n ∧ run.ending = .exit (max m n) := by
  refine ⟨runCommand_eq h hv, fun source _ => upshot_isOneLine limits options source,
    fun source a => upshot_aborts, ?_, ?_⟩
  · obtain ⟨alone, halone⟩ := exists_alone h
    refine ⟨alone, halone, ?_⟩
    rw [runCommand_eq h hv]
    clear h
    induction sources with
    | nil => rfl
    | cons source rest ih =>
      have hsource := @runCommand_eq limits _ _ _ _ (halone source input) hv
      rw [List.map_singleton, account_cons, account_nil, Report.append_empty] at hsource
      rw [List.map_cons, account_cons, ih, ← hsource]
      rfl
  · rintro args₁ args₂ input₁ input₂ xs ys h₁ h₂ rfl habort
    dsimp only
    rw [runCommand_eq h hv, runCommand_eq h₁ hv, runCommand_eq h₂ hv, List.map_append, account_append]
    obtain ⟨m, hm⟩ := account_exits (xs.map (upshot limits options)) (by simp_all)
    obtain ⟨n, hn⟩ := account_exits (ys.map (upshot limits options)) (by simp_all)
    refine ⟨?_, ?_, m, n, hm, hn, ?_⟩ <;> simp only [Report.append, hm, hn]

theorem runCommand_accounts_tree_and_failure :
    Asks ["--ast", "x +", "--", "-x * y"] "" { showTree := true } ["x +", "-x * y"] ∧
      runCommand ⟨100, 100, 100, 100⟩ ["--ast", "x +", "--", "-x * y"] "" = {
        output := "(* (neg x) y)\n"
        errors := "calc: syntax error: unexpected end of input at col 4\n"
        ending := .exit 1 } := by
  have h : Asks ["--ast", "x +", "--", "-x * y"] "" { showTree := true } ["x +", "-x * y"] := ⟨_, rfl, rfl⟩
  exact ⟨h, (runCommand_accounts h rfl).1.trans (by rfl)⟩

/-- A flat sum that can be read and cannot be dumped takes its own line and that of the next expression away. -/
theorem tall_sum_ends_run :
    (∃ t, Expr.parseWithin 100 "x + x + x" = .ok t ∧ 2 < t.height) ∧
      runCommand ⟨100, 100, 100, 2⟩ ["--ast", "x + x + x", "y"] "" =
        { ending := .abort (.unwritable Expr.dumpOverflow) } ∧
      runCommand ⟨100, 100, 100, 2⟩ ["--ast", "y"] "" = { output := "y\n" } := by
  refine ⟨⟨_, rfl, by decide⟩, by rfl, by rfl⟩

end Calculator
