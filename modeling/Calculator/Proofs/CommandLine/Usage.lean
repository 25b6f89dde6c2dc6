import Calculator.Proofs.CommandLine.Display

/-!
# Usage errors

`usage_all_or_nothing`: the first argument that asks for help or cannot be understood decides the whole run, whatever
stands around it. No expression is looked at then, and no other run ends with the status of such an error.
-/

namespace Calculator

/-! ## Arguments that decide -/

def helpFlags : List String := ["--help", "-h"]

def displayFlags : List String := ["--ast", "--verbose", "-v"]

def longFlags : List String := ["--help", "--ast", "--verbose", "--precision", "--"]

def IsLong (arg : String) : Prop := ['-', '-'] <+: arg.toList

instance (arg : String) : Decidable (IsLong arg) := inferInstanceAs (Decidable (_ <+: _))

def IsDigits (value : String) : Prop := value ≠ "" ∧ ∀ c ∈ value.toList, Text.isDigit c = true

-- found by going through the text, not through all characters
instance (value : String) : Decidable (IsDigits value) :=
  decidable_of_iff (value ≠ "" ∧ value.toList.all Text.isDigit = true) (by rw [List.all_eq_true, IsDigits])

/-- Arguments that leave open what becomes of those behind them. -/
inductive Pending : List String → Prop
  | nil : Pending []
  | flag {arg : String} {rest : List String} (display : arg ∈ displayFlags) (pending : Pending rest) :
      Pending (arg :: rest)
  | expression {arg : String} {rest : List String} (short : ¬ IsLong arg) (unmarked : arg ∉ ["-h", "-v"])
      (pending : Pending rest) : Pending (arg :: rest)
  | precision {value : String} {rest : List String} (digits : IsDigits value)
      (decimal : ∀ c ∈ value.toList, Text.isDecimal c = true) (few : value.length ≤ maxIntegerDigits)
      (pending : Pending rest) : Pending ("--precision" :: value :: rest)

/-- Arguments that decide what the run reports, whatever stands behind them. -/
inductive Decides : List String → Report → Prop
  | help {arg : String} {rest : List String} (help : arg ∈ helpFlags) :
      Decides (arg :: rest) { output := usage, errors := "", ending := .exit 0 }
  | unknownFlag {arg : String} {rest : List String} (long : IsLong arg) (unknown : arg ∉ longFlags) :
      Decides (arg :: rest) { output := "", errors := "calc: unknown flag '" ++ arg ++ "'\n", ending := .exit 2 }
  | precisionMissing :
      Decides ["--precision"] { output := "", errors := "calc: --precision requires a value\n", ending := .exit 2 }
  | precisionInvalid {value : String} {rest : List String} (invalid : ¬ IsDigits value) :
      Decides ("--precision" :: value :: rest)
        { output := "", errors := "calc: invalid precision '" ++ value ++ "'\n", ending := .exit 2 }
  -- what passes for digits and still makes no number: too many to convert, or one that is not decimal
  | precisionTooLong {value : String} {rest : List String} {count : Nat} (digits : IsDigits value)
      (leading : (value.toList.takeWhile Text.isDecimal).length = count) (many : maxIntegerDigits < count) :
      Decides ("--precision" :: value :: rest) { output := "", errors := "", ending := .abort (.tooManyDigits count) }
  | precisionNotDecimal {value : String} {rest : List String} (digits : IsDigits value)
      (few : (value.toList.takeWhile Text.isDecimal).length ≤ maxIntegerDigits)
      (other : ¬ ∀ c ∈ value.toList, Text.isDecimal c = true) :
      Decides ("--precision" :: value :: rest) { output := "", errors := "", ending := .abort (.notAnInteger value) }

/-- The first argument that decides anything decides for this report. -/
def Decided (args : List String) (report : Report) : Prop :=
  ∃ front rest, args = front ++ rest ∧ Pending front ∧ Decides rest report

/-! ## Single arguments -/

theorem isLong_iff {arg : String} : IsLong arg ↔ arg.toList.take 2 = ['-', '-'] := by
  rw [IsLong, List.prefix_iff_eq_take]
  exact eq_comm

theorem classify_unmarked {arg : String} (h : arg ∉ "-h" :: "-v" :: longFlags) :
    Argument.classify arg = if arg.toList.take 2 = ['-', '-'] then .unknownFlag else .expression := by
  simp only [longFlags, List.mem_cons, List.not_mem_nil, or_false, not_or] at h
  simp only [Argument.classify, h, or_self, if_false]

theorem classify_spec (arg : String) :
    (Argument.classify arg = .help ↔ arg ∈ helpFlags) ∧
      (Argument.classify arg = .showTree ∨ Argument.classify arg = .verbose ↔ arg ∈ displayFlags) ∧
      (Argument.classify arg = .precision ↔ arg = "--precision") ∧
      (Argument.classify arg = .unknownFlag ↔ IsLong arg ∧ arg ∉ longFlags) ∧
      (Argument.classify arg = .expression ↔ ¬ IsLong arg ∧ arg ∉ ["-h", "-v"]) := by
  rw [isLong_iff]
  by_cases h : arg ∈ "-h" :: "-v" :: longFlags
  · revert arg
    decide
  · rw [classify_unmarked h]
    simp only [longFlags, List.mem_cons, List.not_mem_nil, or_false, not_or] at h
    split <;> rename_i hlong <;> simp [hlong, h, helpFlags, displayFlags, longFlags]

theorem readPrecision_invalid {value : String} (h : ¬ IsDigits value) :
    readPrecision value = .error (.usage (.precisionInvalid value)) := by
  have hbad : (value.toList.isEmpty || !value.toList.all Text.isDigit) = true := by
    rw [Bool.or_eq_true, Bool.not_eq_true', List.isEmpty_iff, ← Bool.not_eq_true, List.all_eq_true]
    by_contra hgood
    simp only [not_or, not_not, String.toList_eq_nil_iff] at hgood
    exact h hgood
  simp only [readPrecision, hbad, if_true]

theorem readPrecision_digits {value : String} (h : IsDigits value) : readPrecision value =
    if maxIntegerDigits < (value.toList.takeWhile Text.isDecimal).length then
      .error (.abort (.tooManyDigits (value.toList.takeWhile Text.isDecimal).length))
    else if value.toList.all Text.isDecimal then
      .ok (value.toList.foldl (fun n c => 10 * n + (Text.digitValue? c).getD 0) 0)
    else .error (.abort (.notAnInteger value)) := by
  have hgood : (value.toList.isEmpty || !value.toList.all Text.isDigit) = false := by
    rw [Bool.or_eq_false_iff, Bool.not_eq_false', List.all_eq_true, ← Bool.not_eq_true, List.isEmpty_iff,
      String.toList_eq_nil_iff]
    exact h
  have hrun : (value.toList.takeWhile Text.isDecimal).length < value.toList.length ↔
      ¬ value.toList.all Text.isDecimal = true := by
    have htaken := List.takeWhile_prefix (l := value.toList) Text.isDecimal
    rw [List.all_eq_true, ← List.takeWhile_eq_self_iff, Nat.lt_iff_le_and_ne, and_iff_right htaken.length_le]
    exact not_congr ⟨htaken.eq_of_length, congrArg List.length⟩
  simp only [readPrecision, hgood, if_neg Bool.false_ne_true, hrun, ite_not]

/-! ## Runs in which expressions are dealt with otherwise -/

def Request.reportBy (limits : Limits) (each : Options → String → Report) (request : Request) (input : String) :
    Report :=
  match request with
  | .run options found =>
    let sources := if found = [] then (Text.strippedLines input.toList).map String.ofList else found
    (sources.map (each options)).foldr Report.append {}
  | request => request.report limits input

theorem reportBy_expressionReport (limits : Limits) (args : List String) (input : String) :
    (Request.ofArguments args).reportBy limits (expressionReport limits) input = runCommand limits args input := by
  unfold Request.reportBy
  split
  · rename_i options found h
    exact (runCommand_reports ⟨found, h, rfl⟩).symm
  · rfl

/-! ## The scan -/

theorem scan_pending {front : List String} (h : Pending front) (rest : List String) (options : Options)
    (found : List String) : ∃ options' found',
      Request.scan options found (front ++ rest) = Request.scan options' found' rest := by
  induction h generalizing options found with
  | nil => exact ⟨options, found, rfl⟩
  | @flag arg _ display _ ih =>
    rw [List.cons_append, Request.scan.eq_def]
    rcases (classify_spec arg).2.1.mpr display with hc | hc
    · simp only [hc]
      exact ih _ found
    · simp only [hc]
      exact ih _ found
  | @expression arg _ short unmarked _ ih =>
    rw [List.cons_append, Request.scan.eq_def]
    simp only [(classify_spec arg).2.2.2.2.mpr ⟨short, unmarked⟩]
    exact ih options _
  | @precision value _ digits decimal few _ ih =>
    have hvalue : ∃ n, readPrecision value = .ok n := by
      have hall : value.toList.takeWhile Text.isDecimal = value.toList := List.takeWhile_eq_self_iff.mpr decimal
      rw [readPrecision_digits digits, hall, String.length_toList, if_neg (Nat.not_lt.mpr few),
        if_pos (List.all_eq_true.mpr decimal)]
      exact ⟨_, rfl⟩
    obtain ⟨n, hn⟩ := hvalue
    have hc : Argument.classify "--precision" = .precision := by decide
    rw [List.cons_append, List.cons_append, Request.scan.eq_def]
    simp only [hc, hn]
    exact ih _ found

theorem misuse_line (start before : String) (h : start = "calc: " ++ before) (arg : String) :
    "calc: " ++ (before ++ arg ++ "'") ++ "\n" = start ++ arg ++ "'\n" := by
  have hclose : "'\n" = "'" ++ "\n" := by decide
  rw [h, hclose]
  simp only [String.append_assoc]

theorem scan_decides (limits : Limits) {args : List String} {report : Report} (h : Decides args report)
    (options : Options) (found : List String) (each : Options → String → Report) (input : String) :
    (Request.scan options found args).reportBy limits each input = report := by
  have hc : Argument.classify "--precision" = .precision := by decide
  rw [Request.scan.eq_def]
  cases h with
  | @help arg rest help =>
    simp only [(classify_spec arg).1.mpr help]
    rfl
  | @unknownFlag arg rest long unknown =>
    have hline := misuse_line "calc: unknown flag '" "unknown flag '" (by decide) arg
    simp only [(classify_spec arg).2.2.2.1.mpr ⟨long, unknown⟩]
    exact congrArg (Report.mk "" · (.exit 2)) hline
  | precisionMissing =>
    simp only [hc]
    rfl
  | @precisionInvalid value rest invalid =>
    have hline := misuse_line "calc: invalid precision '" "invalid precision '" (by decide) value
    simp only [hc, readPrecision_invalid invalid]
    exact congrArg (Report.mk "" · (.exit 2)) hline
  | precisionTooLong digits leading many =>
    simp only [hc, readPrecision_digits digits, leading, if_pos many]
    rfl
  | precisionNotDecimal digits few other =>
    simp only [hc, readPrecision_digits digits, if_neg (Nat.not_lt.mpr few), if_neg (mt List.all_eq_true.mp other)]
    rfl

theorem reportBy_of_decided (limits : Limits) {args : List String} {report : Report} (h : Decided args report)
    (each : Options → String → Report) (input : String) :
    (Request.ofArguments args).reportBy limits each input = report := by
  obtain ⟨front, rest, rfl, hpending, hdecides⟩ := h
  obtain ⟨options, found, hscan⟩ := scan_pending hpending rest {} []
  rw [Request.ofArguments, hscan]
  exact scan_decides limits hdecides options found each input

namespace Decided
variable {args : List String} {report : Report}

theorem here (h : Decides args report) : Decided args report := ⟨[], args, rfl, .nil, h⟩

theorem behind {front : List String} (hf : Pending front) (h : Decided args report) :
    Decided (front ++ args) report := by
  obtain ⟨front', rest, rfl, hpending, hdecides⟩ := h
  refine ⟨front ++ front', rest, (List.append_assoc ..).symm, ?_, hdecides⟩
  induction hf with
  | nil => exact hpending
  | flag display _ ih => exact .flag display ih
  | expression short unmarked _ ih => exact .expression short unmarked ih
  | precision digits decimal few _ ih => exact .precision digits decimal few ih

end Decided

theorem usable_or_decided (value : String) (rest : List String) :
    (∃ n, readPrecision value = .ok n) ∧ Pending ["--precision", value] ∨
      (∀ n, readPrecision value ≠ .ok n) ∧ ∃ report, Decided ("--precision" :: value :: rest) report := by
  by_cases digits : IsDigits value
  · rw [readPrecision_digits digits]
    split
    · rename_i many
      exact .inr ⟨by simp, _, .here (.precisionTooLong digits rfl many)⟩
    · rename_i few
      split
      · rename_i decimal
        rw [List.all_eq_true] at decimal
        have hall : value.toList.takeWhile Text.isDecimal = value.toList := List.takeWhile_eq_self_iff.mpr decimal
        rw [hall, Nat.not_lt] at few
        exact .inl ⟨⟨_, rfl⟩, .precision digits decimal few .nil⟩
      · rename_i other
        rw [List.all_eq_true] at other
        exact .inr ⟨by simp, _, .here (.precisionNotDecimal digits (Nat.not_lt.mp few) other)⟩
  · rw [readPrecision_invalid digits]
    exact .inr ⟨by simp, _, .here (.precisionInvalid digits)⟩

theorem decided_or_run (options : Options) (found args : List String) :
    (∃ report, Decided args report) ∨
      ∃ options' found', Request.scan options found args = .run options' found' := by
  fun_induction Request.scan options found args with
  | case1 => exact .inr ⟨_, _, rfl⟩
  | case2 options found arg rest hc => exact .inl ⟨_, .here (.help ((classify_spec arg).1.mp hc))⟩
  | case3 options found arg rest hc ih =>
    have hpending := Pending.flag ((classify_spec arg).2.1.mp (.inl hc)) .nil
    exact ih.imp_left (.imp fun _ h => h.behind hpending)
  | case4 options found arg rest hc ih =>
    have hpending := Pending.flag ((classify_spec arg).2.1.mp (.inr hc)) .nil
    exact ih.imp_left (.imp fun _ h => h.behind hpending)
  | case5 options found arg hc =>
    obtain rfl := (classify_spec arg).2.2.1.mp hc
    exact .inl ⟨_, .here .precisionMissing⟩
  | case6 options found arg hc value rest e he | case7 options found arg hc value rest e he =>
    obtain rfl := (classify_spec arg).2.2.1.mp hc
    rcases usable_or_decided value rest with ⟨⟨n, hn⟩, -⟩ | ⟨-, h⟩
    · rw [hn] at he
      cases he
    · exact .inl h
  | case8 options found arg hc value rest n hn ih =>
    obtain rfl := (classify_spec arg).2.2.1.mp hc
    rcases usable_or_decided value rest with ⟨-, hpending⟩ | ⟨hunusable, -⟩
    · exact ih.imp_left (.imp fun _ h => h.behind hpending)
    · exact absurd hn (hunusable n)
  | case9 => exact .inr ⟨_, _, rfl⟩
  | case10 options found arg rest hc =>
    obtain ⟨long, unknown⟩ := (classify_spec arg).2.2.2.1.mp hc
    exact .inl ⟨_, .here (.unknownFlag long unknown)⟩
  | case11 options found arg rest hc ih =>
    obtain ⟨short, unmarked⟩ := (classify_spec arg).2.2.2.2.mp hc
    exact ih.imp_left (.imp fun _ h => h.behind (.expression short unmarked .nil))

/-! ## Whole runs -/

theorem account_ending (us : List Upshot) : (account us).ending ≠ .exit 2 := by
  unfold account
  dsimp only
  split
  · simp
  · split <;> simp

theorem usage_all_or_nothing (limits : Limits) (args : List String) :
    (∀ report, Decided args report → ∀ input, runCommand limits args input = report ∧
      ∀ each, (Request.ofArguments args).reportBy limits each input = report) ∧
    (∀ input, (runCommand limits args input).ending = .exit 2 →
      ∃ report, Decided args report ∧ report.ending = .exit 2) ∧
    ∀ input, (∃ report, Decided args report) ∨ ∃ options sources, Asks args input options sources := by
  have hrun := decided_or_run {} [] args
  refine ⟨fun report h input => ?_, fun input hending => ?_, fun input => ?_⟩
  · rw [← reportBy_expressionReport]
    exact ⟨reportBy_of_decided limits h _ input, fun each => reportBy_of_decided limits h each input⟩
  · rcases hrun with ⟨report, h⟩ | ⟨options, found, hrequest⟩
    · rw [← reportBy_expressionReport, reportBy_of_decided limits h] at hending
      exact ⟨report, h, hending⟩
    · rw [runCommand_reports ⟨found, hrequest, rfl⟩, reports_eq] at hending
      exact absurd hending (account_ending _)
  · exact hrun.imp_right fun ⟨options, found, hrequest⟩ => ⟨options, _, found, hrequest, rfl⟩

/-- A terminator that stands for a value ends nothing, and neither the expression before it nor the flag behind it
counts. -/
theorem usage_all_or_nothing_terminator_as_value :
    Decided ["2 / 0", "-v", "--precision", "2", "--precision", "--", "--help"]
        { output := "", errors := "calc: invalid precision '--'\n", ending := .exit 2 } ∧
      runCommand ⟨100, 100, 100, 100⟩ ["2 / 0", "-v", "--precision", "2", "--precision", "--", "--help"] "1 + 1" =
        { output := "", errors := "calc: invalid precision '--'\n", ending := .exit 2 } := by
  have hpending : Pending ["2 / 0", "-v", "--precision", "2"] :=
    .expression (by decide) (by decide)
      (.flag (by decide) (.precision (by decide) (List.all_eq_true.mp (by decide)) (by decide) .nil))
  have hinvalid : ¬ IsDigits "--" := by decide
  have h : Decided ["2 / 0", "-v", "--precision", "2", "--precision", "--", "--help"] _ :=
    ⟨_, _, rfl, hpending, .precisionInvalid hinvalid⟩
  exact ⟨h, ((usage_all_or_nothing ⟨100, 100, 100, 100⟩ _).1 _ h "1 + 1").1⟩

end Calculator
