import Calculator.Proofs.CommandLine.LogLines
import Mathlib.Data.List.Forall2

/-!
# Display options do not interfere

`display_options_do_not_interfere`: a run with its log shown differs from the run without in the lines of the log
alone, unless it comes to a tree too tall to be described, which ends it there. A number of places changes how results
are written and nothing else.
-/

namespace Calculator

/-! ## Options in front -/

/-- Options over others that they give way to nowhere. -/
def Options.over (a b : Options) : Options where
  showTree := a.showTree || b.showTree
  verbose := a.verbose || b.verbose
  places := a.places.or b.places

theorem scan_over {options : Options} {found args : List String} {options' : Options} {found' : List String}
    (h : Request.scan options found args = .run options' found') (base : Options) :
    Request.scan (options.over base) found args = .run (options'.over base) found' := by
  fun_induction Request.scan options found args with
  | case1 => cases h; rfl
  -- what ends the scan with something else than a run
  | case2 | case5 | case6 | case7 | case10 => cases h
  -- flags and expressions
  | case3 options found arg rest hc ih | case4 options found arg rest hc ih | case11 options found arg rest hc ih =>
    rw [Request.scan.eq_def]
    simp only [hc]
    exact ih h
  | case8 options found arg hc value rest n hn ih =>
    rw [Request.scan.eq_def]
    simp only [hc, hn]
    exact ih h
  | case9 options found arg rest hc =>
    cases h
    rw [Request.scan.eq_def]
    simp only [hc]

section
variable {args : List String} {input : String} {options : Options} {sources : List String}
  (h : Asks args input options sources)
include h

theorem asks_verbose : Asks ("--verbose" :: args) input { options with verbose := true } sources := by
  obtain ⟨found, hrequest, hsources⟩ := h
  have hscan := scan_over hrequest { verbose := true }
  refine ⟨found, ?_, hsources⟩
  have hover : options.over { verbose := true } = { options with verbose := true } := by
    simp [Options.over]
  rw [← hover, ← hscan]
  rfl

theorem asks_precision {value : String} {n : Nat} (hn : readPrecision value = .ok n) (hp : options.places = none) :
    Asks ("--precision" :: value :: args) input { options with places := some n } sources := by
  obtain ⟨found, hrequest, hsources⟩ := h
  have hscan := scan_over hrequest { places := some n }
  refine ⟨found, ?_, hsources⟩
  have hover : options.over { places := some n } = { options with places := some n } := by
    simp [Options.over, hp]
  rw [← hover, ← hscan, Request.ofArguments, Request.scan]
  have hc : Argument.classify "--precision" = .precision := by decide
  simp only [hc, hn]
  rfl

end

/-! ## The lines of a run -/

def Text.unlines (texts : List String) : String := String.join (texts.map (· ++ "\n"))

theorem Text.unlines_append (texts texts' : List String) :
    unlines (texts ++ texts') = unlines texts ++ unlines texts' := by
  simp only [unlines, List.map_append, String.join_append]

theorem Text.lines_unlines {texts : List String} (h : ∀ text ∈ texts, IsOneLine text) :
    lines (unlines texts).toList = texts.map String.toList :=
  lines_joined h

def Report.after (log : String) (r : Report) : Report := { r with errors := log ++ r.errors }

theorem Report.append_after (log : String) (r : Report) : append { errors := log } r = r.after log := by
  obtain ⟨_, _, t | _⟩ := r <;> simp [append, after]

section
variable (limits : Limits) (options : Options) (source : String)

/-- The log as it is shown, and what ends the run if it cannot be shown to its end. -/
def shownLog : List String × Option Abort :=
  if options.verbose then writtenLog limits (logged limits options source) else ([], none)

/-- What becomes of an expression when its log has been shown. -/
def upshotBehindLog : Upshot :=
  match (shownLog limits options source).2 with
  | some a => .aborted a
  | none => upshot limits options source

end

theorem entryReports (limits : Limits) (log : List LogEntry) :
    (log.map (entryReport limits)).foldr Report.append {} = {
      errors := Text.unlines (writtenLog limits log).1
      ending := match (writtenLog limits log).2 with
        | some a => .abort a
        | none => .exit 0 } := by
  induction log with
  | nil => rfl
  | cons entry rest ih =>
    rw [List.map_cons, List.foldr_cons, ih, entryReport, writtenLog]
    cases entry.text limits with
    | error e => rfl
    | ok line => exact (Report.append_after _ _).trans (congrArg (Report.mk "" · _) (String.join_cons ..).symm)

/-- A log in front of a report ends the run, or leaves it to the report. -/
theorem logReport_append (limits : Limits) (options : Options) (source : String) (u : Upshot) :
    (logReport limits options (logged limits options source)).append u.report =
      (match (shownLog limits options source).2 with
        | some a => .aborted a
        | none => u : Upshot).report.after (Text.unlines (shownLog limits options source).1) := by
  unfold logReport shownLog
  split
  · rw [entryReports]
    cases (writtenLog limits (logged limits options source)).2 with
    | some a => simp [Report.append, Report.after, Upshot.report]
    | none => exact Report.append_after _ _
  · exact Report.append_after _ _

theorem expressionReport_eq (limits : Limits) (options : Options) (source : String) :
    expressionReport limits options source =
      (upshotBehindLog limits options source).report.after (Text.unlines (shownLog limits options source).1) := by
  have hlog := logReport_append limits options source (upshot limits options source)
  rw [upshotBehindLog, ← hlog]
  unfold expressionReport upshot logged
  split
  · unfold treeReport
    cases Expr.parseWithin limits.reading source with
    | error e =>
      have hnone : logReport limits options [] = {} := by unfold logReport; split <;> rfl
      simp only [hnone, Report.empty_append]
      exact failureReport_eq (.parse e)
    | ok tree =>
      simp only [resultReport_eq]
  · unfold valueReport
    dsimp only
    cases (calculate limits source).outcome with
    | error e => simp only [failureReport_eq]
    | ok x => simp only [resultReport_eq]

def errorLines (u : Upshot) : List String := u.diagnostic?.toList.map fun d => "calc: " ++ d.kind ++ ": " ++ d.text

/-- What an expression adds to the errors: its log, if that is shown, and directly behind it its error. -/
def errorsOf (limits : Limits) (options : Options) (source : String) : List String :=
  (shownLog limits options source).1 ++ errorLines (upshotBehindLog limits options source)

/-- The expressions that a run comes to, the last of them perhaps ending it. -/
def reached (limits : Limits) (options : Options) : List String → List String
  | [] => []
  | source :: rest =>
    source :: if (upshotBehindLog limits options source).abort?.isSome then [] else reached limits options rest

theorem errors_of_report (limits : Limits) (options : Options) (source : String) :
    (expressionReport limits options source).errors = Text.unlines (errorsOf limits options source) := by
  have herror : ∀ u : Upshot, u.report.errors = Text.unlines (errorLines u) := by
    intro u
    cases u with
    | failed d => simp [Upshot.report, errorLines, Upshot.diagnostic?, Text.unlines, diagnosticLine]
    | _ => rfl
  rw [expressionReport_eq, Report.after, errorsOf, Text.unlines_append, herror]

theorem reports_eq (limits : Limits) (options : Options) (sources : List String) :
    (sources.map (expressionReport limits options)).foldr Report.append {} =
      { account (sources.map (upshotBehindLog limits options)) with
        errors := Text.unlines ((reached limits options sources).flatMap (errorsOf limits options)) } := by
  induction sources with
  | nil => rfl
  | cons source rest ih =>
    have herrors := errors_of_report limits options source
    rw [List.map_cons, List.foldr_cons, ih, List.map_cons, reached, List.flatMap_cons, Text.unlines_append, ← herrors,
      expressionReport_eq]
    cases upshotBehindLog limits options source with
    | shown line =>
      rw [account_shown]
      generalize account (rest.map (upshotBehindLog limits options)) = r
      obtain ⟨_, _, t | _⟩ := r <;> simp [Report.append, Report.after, Upshot.report, Upshot.abort?]
    | failed d =>
      rw [account_failed]
      generalize account (rest.map (upshotBehindLog limits options)) = r
      obtain ⟨_, _, t | _⟩ := r <;> simp [Report.append, Report.after, Upshot.report, Upshot.abort?]
    | aborted a =>
      rw [account_cons]
      simp [Report.append, Report.after, Upshot.report, Upshot.abort?, Text.unlines]

theorem account_reached (limits : Limits) (options : Options) (sources : List String) :
    account ((reached limits options sources).map (upshotBehindLog limits options)) =
      account (sources.map (upshotBehindLog limits options)) := by
  induction sources with
  | nil => rfl
  | cons source rest ih =>
    rw [reached, List.map_cons, List.map_cons, account_cons, account_cons]
    cases upshotBehindLog limits options source with
    | aborted a => rfl
    | _ =>
      rw [← ih]
      rfl

/-! ## The log -/

def withoutLog (errors : String) : String :=
  Text.unlines (((Text.lines errors.toList).map String.ofList).filter fun line => !isLogLine line)

theorem withoutLog_unlines {texts : List String} (h : ∀ text ∈ texts, Text.IsOneLine text) :
    withoutLog (Text.unlines texts) = Text.unlines (texts.filter fun line => !isLogLine line) := by
  have htexts : (texts.map String.toList).map String.ofList = texts := by
    simp [List.map_map, Function.comp_def]
  rw [withoutLog, Text.lines_unlines h, htexts]

theorem isOneLine_shownLog (limits : Limits) (options : Options) (source : String) :
    ∀ line ∈ (shownLog limits options source).1, Text.IsOneLine line := by
  unfold shownLog
  split
  · cases hp : Expr.parseWithin limits.reading source with
    | error e => simp [logged_of_parse_error hp, writtenLog]
    | ok t => exact (writtenLog_logged hp options).2.2
  · simp

theorem isOneLine_errorsOf (limits : Limits) (options : Options) (source : String) :
    ∀ text ∈ errorsOf limits options source, Text.IsOneLine text := by
  have hupshot := upshot_isOneLine limits options source
  rw [errorsOf, List.forall_mem_append]
  refine ⟨isOneLine_shownLog limits options source, ?_⟩
  unfold upshotBehindLog
  split
  · simp [errorLines, Upshot.diagnostic?]
  · revert hupshot
    unfold errorLines
    cases upshot limits options source with
    | failed d =>
      intro hupshot
      have hd : Text.IsOneLine d.kind ∧ Text.IsOneLine d.text := hupshot
      simp +decide [Upshot.diagnostic?, hd]
    | _ => simp [Upshot.diagnostic?]

theorem filter_errorsOf (limits : Limits) (options : Options) (source : String) :
    (errorsOf limits options source).filter (fun line => !isLogLine line) =
      errorLines (upshotBehindLog limits options source) := by
  rw [errorsOf, List.filter_append]
  have hlog : (shownLog limits options source).1.filter (fun line => !isLogLine line) = [] := by
    unfold shownLog
    split
    · rw [List.filter_eq_nil_iff]
      intro line hline
      rw [isLogLine_written line hline]
      decide
    · rfl
  have herror : ∀ u : Upshot, (errorLines u).filter (fun line => !isLogLine line) = errorLines u := by
    intro u
    rw [List.filter_eq_self, errorLines, List.forall_mem_map]
    intro d _
    rw [isLogLine_diagnostic]
    rfl
  rw [hlog, herror, List.nil_append]

section
variable {limits : Limits} {args : List String} {input : String} {options : Options} {sources : List String}
  (h : Asks args input options sources)
include h

theorem runCommand_behindLog : runCommand limits args input =
    { account (sources.map (upshotBehindLog limits options)) with
      errors := Text.unlines ((reached limits options sources).flatMap (errorsOf limits options)) } :=
  (runCommand_reports h).trans (reports_eq limits options sources)

theorem withoutLog_run : withoutLog (runCommand limits args input).errors = Text.unlines
    ((reached limits options sources).flatMap fun source => errorLines (upshotBehindLog limits options source)) := by
  have hlines : ∀ text ∈ (reached limits options sources).flatMap (errorsOf limits options), Text.IsOneLine text := by
    intro text htext
    obtain ⟨source, -, hsource⟩ := List.mem_flatMap.mp htext
    exact isOneLine_errorsOf limits options source text hsource
  rw [runCommand_behindLog h]
  dsimp only
  rw [withoutLog_unlines hlines, List.filter_flatMap]
  simp only [filter_errorsOf]

end

/-! ## Logs that are shown and logs that are not -/

/-- Whether the tree of an expression, if it has one, can be described. -/
def Describable (limits : Limits) (source : String) : Prop :=
  ∀ t, Expr.parseWithin limits.reading source = .ok t → t.height ≤ limits.description

theorem writtenLog_describable {limits : Limits} {source : String} (h : Describable limits source) (options : Options) :
    (writtenLog limits (logged limits options source)).2 = none := by
  cases hp : Expr.parseWithin limits.reading source with
  | error e =>
    rw [logged_of_parse_error hp]
    rfl
  | ok t => exact (writtenLog_logged hp options).1 (h t hp)

theorem upshotBehindLog_describable {limits : Limits} {source : String} (h : Describable limits source)
    (options : Options) : upshotBehindLog limits options source = upshot limits options source := by
  have hnone : (shownLog limits options source).2 = none := by
    unfold shownLog
    split
    · exact writtenLog_describable h options
    · rfl
  rw [upshotBehindLog, hnone]

/-- A log makes no difference to an expression if it can be written, or is shown either way. -/
theorem upshotBehindLog_verbose {limits : Limits} {options : Options} {source : String}
    (h : options.verbose = true ∨ Describable limits source) :
    upshotBehindLog limits { options with verbose := true } source = upshotBehindLog limits options source := by
  rcases h with hv | hd
  · rw [← hv]
  · rw [upshotBehindLog_describable hd, upshotBehindLog_describable hd]
    rfl

theorem reached_verbose {limits : Limits} {options : Options} {sources : List String}
    (h : ∀ source ∈ reached limits options sources, options.verbose = true ∨ Describable limits source) :
    reached limits { options with verbose := true } sources = reached limits options sources := by
  induction sources with
  | nil => rfl
  | cons source rest ih =>
    rw [reached, List.forall_mem_cons] at h
    rw [reached, reached, upshotBehindLog_verbose h.1]
    split
    · rfl
    · rename_i hgoes
      rw [if_neg hgoes] at h
      rw [ih h.2]

/-! ## Places -/

/-- The same, but perhaps for the line shown. -/
inductive Upshot.Akin : Upshot → Upshot → Prop
  | same (u : Upshot) : Akin u u
  | shown (line line' : String) : Akin (.shown line) (.shown line')

theorem Upshot.Akin.abort_eq {u v : Upshot} (h : u.Akin v) : u.abort? = v.abort? := by cases h <;> rfl

theorem Upshot.Akin.errorLines_eq {u v : Upshot} (h : u.Akin v) : errorLines u = errorLines v := by cases h <;> rfl

theorem upshot_akin (limits : Limits) {options : Options} (hp : options.places = none) {n : Nat} (hn : n ≤ maxPlaces)
    (source : String) :
    (upshot limits { options with places := some n } source).Akin (upshot limits options source) := by
  have hformat : ∀ x, formatResult (some n) x = .ok (x.fixed n) := by
    intro x
    have hmax : n ≤ maxRequestedPlaces := Nat.le_trans hn (by decide)
    simp [formatResult, Nat.not_lt.mpr hn, Nat.not_lt.mpr hmax]
  unfold upshot
  split
  · exact .same _
  · rw [hp]
    cases (calculate limits source).outcome with
    | error e => exact .same _
    | ok x =>
      simp only [hformat]
      exact .shown _ _

theorem upshotBehindLog_akin (limits : Limits) {options : Options} (hp : options.places = none) {n : Nat}
    (hn : n ≤ maxPlaces) (source : String) :
    (upshotBehindLog limits { options with places := some n } source).Akin (upshotBehindLog limits options source) := by
  have hlog : shownLog limits { options with places := some n } source = shownLog limits options source := rfl
  unfold upshotBehindLog
  rw [hlog]
  split
  · exact .same _
  · exact upshot_akin limits hp hn source

theorem account_akin {us vs : List Upshot} (h : List.Forall₂ Upshot.Akin us vs) :
    (account us).ending = (account vs).ending ∧
    ((beforeAbort us).filterMap (·.line?)).length = ((beforeAbort vs).filterMap (·.line?)).length := by
  induction h with
  | nil => exact ⟨rfl, rfl⟩
  | @cons u v us vs huv _ ih =>
    obtain ⟨hending, hlength⟩ := ih
    rw [account_cons, account_cons]
    unfold Report.append
    rw [hending]
    cases huv with
    | shown line line' =>
      refine ⟨rfl, ?_⟩
      simpa [beforeAbort, Upshot.abort?, Upshot.line?] using hlength
    | same u =>
      cases u with
      | aborted a => exact ⟨rfl, rfl⟩
      | _ =>
        refine ⟨rfl, ?_⟩
        simpa [beforeAbort, Upshot.abort?, Upshot.line?] using hlength

theorem expressionReport_tree (limits : Limits) {options : Options} (h : options.showTree = true) (n : Nat) :
    expressionReport limits { options with places := some n } = expressionReport limits options := by
  funext source
  unfold expressionReport
  rw [if_pos h, if_pos h]
  rfl

theorem reached_akin {limits : Limits} {options options' : Options}
    (h : ∀ source, (upshotBehindLog limits options source).Akin (upshotBehindLog limits options' source))
    (sources : List String) : reached limits options sources = reached limits options' sources := by
  induction sources with
  | nil => rfl
  | cons source rest ih => rw [reached, reached, ih, (h source).abort_eq]

/-! ## Whole runs -/

section
variable {limits : Limits} {args : List String} {input : String} {options : Options} {sources : List String}
  (h : Asks args input options sources)
include h

theorem verbose_run : runCommand limits ("--verbose" :: args) input = (sources.map fun source =>
    let log := writtenLog limits (logged limits options source)
    (match log.2 with
      | some a => .aborted a
      | none => upshot limits options source : Upshot).report.after (Text.unlines log.1)).foldr Report.append {} := by
  rw [runCommand_reports (asks_verbose h)]
  exact congrArg (fun f => (sources.map f).foldr Report.append {}) (funext fun source => expressionReport_eq ..)

theorem verbose_agrees
    (hd : ∀ source ∈ reached limits options sources, options.verbose = true ∨ Describable limits source) :
    (runCommand limits ("--verbose" :: args) input).output = (runCommand limits args input).output ∧
      (runCommand limits ("--verbose" :: args) input).ending = (runCommand limits args input).ending ∧
      withoutLog (runCommand limits ("--verbose" :: args) input).errors =
        withoutLog (runCommand limits args input).errors := by
  have hreached := reached_verbose hd
  have hupshots : ∀ source ∈ reached limits options sources,
      upshotBehindLog limits { options with verbose := true } source = upshotBehindLog limits options source :=
    fun source hsource => upshotBehindLog_verbose (hd source hsource)
  have haccount : account (sources.map (upshotBehindLog limits { options with verbose := true })) =
      account (sources.map (upshotBehindLog limits options)) := by
    rw [← account_reached, hreached, List.map_congr_left hupshots, account_reached]
  have herrors : (reached limits options sources).flatMap
        (fun source => errorLines (upshotBehindLog limits { options with verbose := true } source)) =
      (reached limits options sources).flatMap fun source => errorLines (upshotBehindLog limits options source) :=
    List.flatMap_congr fun source hsource => by rw [hupshots source hsource]
  rw [withoutLog_run (asks_verbose h), withoutLog_run h, hreached, herrors, runCommand_behindLog (asks_verbose h),
    runCommand_behindLog h, haccount]
  exact ⟨rfl, rfl, rfl⟩

theorem withoutLog_quiet (hv : options.verbose = false) :
    withoutLog (runCommand limits args input).errors = (runCommand limits args input).errors := by
  have herrors : ∀ source, errorsOf limits options source = errorLines (upshotBehindLog limits options source) := by
    intro source
    simp [errorsOf, shownLog, hv]
  rw [withoutLog_run h, runCommand_behindLog h, funext herrors]

theorem precision_run {value : String} {n : Nat} (hvalue : readPrecision value = .ok n) (hn : n ≤ maxPlaces)
    (hp : options.places = none) :
    (runCommand limits ("--precision" :: value :: args) input).errors = (runCommand limits args input).errors ∧
      (runCommand limits ("--precision" :: value :: args) input).ending = (runCommand limits args input).ending ∧
      (Text.lines (runCommand limits ("--precision" :: value :: args) input).output.toList).length =
        (Text.lines (runCommand limits args input).output.toList).length ∧
      (options.showTree = true →
        runCommand limits ("--precision" :: value :: args) input = runCommand limits args input) := by
  have hakin := upshotBehindLog_akin limits hp hn
  have hus : List.Forall₂ Upshot.Akin (sources.map (upshotBehindLog limits { options with places := some n }))
      (sources.map (upshotBehindLog limits options)) := by
    rw [List.forall₂_map_left_iff, List.forall₂_map_right_iff, List.forall₂_same]
    exact fun source _ => hakin source
  have hone : ∀ options : Options, ∀ u ∈ sources.map (upshotBehindLog limits options), u.IsOneLine := by
    intro options
    refine List.forall_mem_map.mpr fun source _ => ?_
    unfold upshotBehindLog
    split
    · exact trivial
    · exact upshot_isOneLine limits options source
  have herrors : ∀ source,
      errorsOf limits { options with places := some n } source = errorsOf limits options source := by
    intro source
    unfold errorsOf
    rw [(hakin source).errorLines_eq]
    rfl
  obtain ⟨hending, hlength⟩ := account_akin hus
  rw [runCommand_behindLog (asks_precision h hvalue hp), runCommand_behindLog h]
  refine ⟨?_, hending, ?_, fun htree => ?_⟩
  · rw [reached_akin hakin]
    exact congrArg (fun f => Text.unlines (List.flatMap f _)) (funext herrors)
  · dsimp only
    rw [(lines_of_account (hone _)).1, (lines_of_account (hone _)).1, List.length_map, List.length_map, hlength]
  · rw [← reports_eq, ← reports_eq, expressionReport_tree limits htree]

end

theorem display_options_do_not_interfere {limits : Limits} {args : List String} {input : String} {options : Options}
    {sources : List String} (h : Asks args input options sources) :
    let plain := runCommand limits args input
    let loud := runCommand limits ("--verbose" :: args) input
    ((∀ source ∈ reached limits options sources, options.verbose = true ∨ Describable limits source) →
        loud.output = plain.output ∧ loud.ending = plain.ending ∧ withoutLog loud.errors = withoutLog plain.errors ∧
        (options.verbose = false → withoutLog loud.errors = plain.errors)) ∧
      (options.verbose = false →
        plain = (sources.map fun source => (upshot limits options source).report).foldr Report.append {}) ∧
      loud = (sources.map fun source =>
        let log := writtenLog limits (logged limits options source)
        (match log.2 with
          | some a => .aborted a
          | none => upshot limits options source : Upshot).report.after (Text.unlines log.1)).foldr Report.append {} ∧
      (∀ source, let log := logged limits options source
        (∀ e, Expr.parseWithin limits.reading source = .error e → log = []) ∧
        ∀ t, Expr.parseWithin limits.reading source = .ok t →
          let evaluation := t.evaluateWithin .standard limits.evaluation
          (∃ closing, LogEntry.Closes source evaluation.outcome closing ∧
            log = .parsed source t :: if options.showTree then [] else
              evaluation.calls.toList.map .called ++ [closing]) ∧
          (t.height ≤ limits.description → (writtenLog limits log).2 = none ∧
            log.map (LogEntry.text limits) = (writtenLog limits log).1.map .ok) ∧
          (limits.description < t.height →
            writtenLog limits log = ([], some (.unwritable Expr.descriptionOverflow))) ∧
          ∀ line ∈ (writtenLog limits log).1, Text.IsOneLine line) ∧
      ∀ (value : String) (n : Nat), readPrecision value = .ok n → n ≤ maxPlaces → options.places = none →
        let placed := runCommand limits ("--precision" :: value :: args) input
        placed.errors = plain.errors ∧ placed.ending = plain.ending ∧
          (Text.lines placed.output.toList).length = (Text.lines plain.output.toList).length ∧
          (options.showTree = true → placed = plain) := by
  refine ⟨fun hd => ?_, fun hv => ?_, verbose_run h, fun source => ⟨fun e he => logged_of_parse_error he options, ?_⟩,
    fun value n hvalue hn hp => precision_run h hvalue hn hp⟩
  · obtain ⟨houtput, hending, hlog⟩ := verbose_agrees h hd
    exact ⟨houtput, hending, hlog, fun hv => hlog.trans (withoutLog_quiet h hv)⟩
  · rw [runCommand_eq h hv, account_eq, List.map_map]
    rfl
  · intro t ht
    obtain ⟨hfits, hends, hlines⟩ := writtenLog_logged ht options
    exact ⟨logged_of_parse ht options, fun hle => ⟨hfits hle, writtenLog_complete (hfits hle)⟩, hends, hlines⟩

theorem display_options_do_not_interfere_mixed :
    Asks ["q", "1 +"] "" {} ["q", "1 +"] ∧ readPrecision "2" = .ok 2 ∧ 2 ≤ maxPlaces ∧
      (runCommand ⟨100, 100, 100, 100⟩ ["--verbose", "q", "1 +"] "").errors =
        "calc.parse: parsed 'q' -> Identifier(name='q')\n" ++
        "calc: calculate 'q' failed: unknown identifier: unknown identifier 'q'\n" ++
        "calc: unknown identifier: unknown identifier 'q'\n" ++
        "calc: syntax error: unexpected end of input at col 4\n" ∧
      (runCommand ⟨100, 100, 100, 100⟩ ["--precision", "2", "q", "1 +"] "").errors =
        "calc: unknown identifier: unknown identifier 'q'\n" ++
        "calc: syntax error: unexpected end of input at col 4\n" := by
  have h : Asks ["q", "1 +"] "" {} ["q", "1 +"] := ⟨_, rfl, rfl⟩
  have hvalue : readPrecision "2" = .ok 2 := by decide +kernel
  obtain ⟨-, -, hloud, -, hplaced⟩ := @display_options_do_not_interfere ⟨100, 100, 100, 100⟩ _ _ _ _ h
  obtain ⟨herrors, -⟩ := hplaced "2" 2 hvalue (by decide) rfl
  exact ⟨h, hvalue, by decide, by rw [hloud]; rfl, herrors.trans (by rfl)⟩

/-- A flat sum that is dumped in a plain run and ends the run that is to log it. -/
theorem tall_sum_ends_verbose_run :
    (∃ t, Expr.parseWithin 100 "x + x + x" = .ok t ∧ 2 < t.height) ∧
      runCommand ⟨100, 100, 2, 100⟩ ["--ast", "x + x + x"] "" = { output := "(+ (+ x x) x)\n" } ∧
      runCommand ⟨100, 100, 2, 100⟩ ["--verbose", "--ast", "x + x + x"] "" =
        { ending := .abort (.unwritable Expr.descriptionOverflow) } := by
  refine ⟨⟨_, rfl, by decide⟩, by rfl, by rfl⟩

end Calculator
