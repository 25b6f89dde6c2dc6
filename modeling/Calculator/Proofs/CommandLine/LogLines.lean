import Calculator.Proofs.CommandLine.Account

/-!
# Log lines

`writtenLog_logged`: the log of an expression is written in full, every entry on a line of its own, or it ends the run
because the tree is too tall to be described. `isLogLine_written`, `isLogLine_diagnostic`: how such a line begins tells
it from the line of an error.
-/

namespace Calculator
open Text

/-! ## Events -/

section
variable {holds : Event → Prop}

theorem Evaluation.chain_events {evaluate : Expr → Evaluation} (hev : ∀ e, ∀ ev ∈ (evaluate e).events, holds ev) :
    ∀ (links : List (Operator × Expr)) {left : Evaluation}, (∀ ev ∈ left.events, holds ev) →
      ∀ ev ∈ (chain evaluate left links).events, holds ev
  | [], _, h => h
  | (op, right) :: rest, left, h => by
    rw [chain]
    split
    · exact h
    · refine chain_events hev rest fun ev hmem => ?_
      rcases Array.mem_append.mp hmem with hmem | hmem
      · exact h ev hmem
      · exact hev right ev hmem

theorem Evaluation.arguments_events {evaluate : Expr → Evaluation} (hev : ∀ e, ∀ ev ∈ (evaluate e).events, holds ev) :
    ∀ (es : List Expr) (values : List Binary64) {events : Array Event}, (∀ ev ∈ events, holds ev) →
      ∀ ev ∈ (arguments evaluate values events es).2, holds ev
  | [], _, _, h => h
  | e :: es, values, events, h => by
    have hfirst : ∀ ev ∈ events ++ (evaluate e).events, holds ev := fun ev hmem =>
      (Array.mem_append.mp hmem).elim (h ev) (hev e ev)
    rw [arguments]
    cases (evaluate e).outcome with
    | error error => exact hfirst
    | ok x => exact arguments_events hev es (x :: values) hfirst

/-- What holds of the events of every call holds of every event. -/
theorem Expr.evaluateWithin_events {env : Environment}
    (hcall : ∀ name values, ∀ ev ∈ (env.call name values).events, holds ev) :
    ∀ (limit : Nat) (e : Expr), ∀ ev ∈ (e.evaluateWithin env limit).events, holds ev
  | 0, _ => by simp [evaluateWithin, Evaluation.failure]
  | limit + 1, e => by
    have hev := evaluateWithin_events hcall limit
    cases e with
    | number x => simp [evaluateWithin, Evaluation.value]
    | name n => simp [evaluateWithin]
    | foreign kind => simp [evaluateWithin, Evaluation.failure]
    | group inner => exact hev inner
    | signed s operand => exact hev operand
    | binary op left right =>
      rw [evaluateWithin]
      exact Evaluation.chain_events hev _ (hev _)
    | call f args =>
      have hnone : ∀ ev ∈ (#[] : Array Event), holds ev := by simp
      have hargs := Evaluation.arguments_events hev args [] hnone
      rw [evaluateWithin]
      revert hargs
      obtain ⟨outcome, events⟩ := Evaluation.arguments (evaluateWithin env limit) [] #[] args
      intro hargs
      cases outcome with
      | error error => exact hargs
      | ok values => exact fun ev hmem => (Array.mem_append.mp hmem).elim (hargs ev) (hcall f values ev)

end

def Event.IsOf (env : Environment) (ev : Event) : Prop := ∀ r, ev.record? = some r → r.name ∈ env.functions.keys

theorem Environment.call_events (env : Environment) (name : String) (values : List Binary64) :
    ∀ ev ∈ (env.call name values).events, ev.IsOf env := by
  cases hfind : env.functions.find? (Text.lower name) with
  | none => simp [call_unknown hfind, Evaluation.failure]
  | some b =>
    by_cases hcount : (values.length : Int) = b.arity
    · have hname := List.find?_some hfind
      have hkey : Text.lower name ∈ env.functions.keys :=
        List.mem_map.mpr ⟨b, List.mem_of_find?_eq_some hfind, eq_of_beq hname⟩
      cases hx : b.apply values with
      | ok x => simp [call_returns hfind hcount hx, Event.IsOf, Event.record?, hkey]
      | error m => simp [call_raises hfind hcount hx, Event.IsOf, Event.record?]
    · simp [call_wrongCount hfind hcount, Evaluation.failure]

theorem Expr.name_of_calls {env : Environment} {limit : Nat} {t : Expr} :
    ∀ r ∈ (t.evaluateWithin env limit).calls, r.name ∈ env.functions.keys := by
  intro r hr
  obtain ⟨ev, hev, hrecord⟩ := Array.mem_filterMap.mp hr
  exact evaluateWithin_events env.call_events limit t ev hev r hrecord

/-! ## Entries on one line -/

theorem isOneLine_listing {items : List String} (h : ∀ item ∈ items, IsOneLine item) : IsOneLine (listing items) := by
  have hitems : IsOneLine (String.intercalate ", " items) := isOneLine_intercalate (by decide) h
  unfold listing
  split
  · decide
  · rename_i item
    have hitem := h item (List.mem_singleton_self item)
    simp +decide [hitem]
  · simp +decide [hitems]

theorem isOneLine_record {r : CallRecord} (h : IsOneLine r.name) : IsOneLine r.text := by
  have harguments : IsOneLine (listing (r.arguments.map Binary64.text)) :=
    isOneLine_listing (List.forall_mem_map.mpr fun x _ => isOneLine_text x)
  simp +decide [CallRecord.text, h, harguments, isOneLine_text]

theorem isOneLine_sign (s : Sign) : IsOneLine s.description := by
  cases s <;> simp +decide [Sign.description, Sign.title, isOneLine_quoted]

theorem isOneLine_operator (op : Operator) : IsOneLine op.description := by
  cases op <;> simp +decide [Operator.description, Operator.title, isOneLine_quoted]

namespace Expr

theorem isOneLine_labels : IsOneLine "Literal(value=" ∧ IsOneLine "Identifier(name=" ∧ IsOneLine "Unary(op=" ∧
    IsOneLine ", operand=" ∧ IsOneLine "Binary(op=" ∧ IsOneLine ", left=" ∧ IsOneLine ", right=" ∧
    IsOneLine "Grouping(inner=" ∧ IsOneLine "Call(name=" ∧ IsOneLine ", args=" ∧ IsOneLine ")" := by
  decide +kernel

mutual

theorem isOneLine_description : ∀ {e : Expr}, e.isWellFormed = true → IsOneLine e.description
  | .number x, _ => by
    show IsOneLine ("Literal(value=" ++ x.text ++ ")")
    simp only [isOneLine_append, isOneLine_labels, isOneLine_text, and_self]
  | .name n, _ => by
    show IsOneLine ("Identifier(name=" ++ quoted n ++ ")")
    simp only [isOneLine_append, isOneLine_labels, isOneLine_quoted, and_self]
  | .signed s e, hw => by
    simp only [isWellFormed, Bool.and_eq_true] at hw
    have he := isOneLine_description hw.2
    show IsOneLine ("Unary(op=" ++ s.description ++ ", operand=" ++ e.description ++ ")")
    simp only [isOneLine_append, isOneLine_labels, isOneLine_sign, he, and_self]
  | .binary op l r, hw => by
    simp only [isWellFormed, Bool.and_eq_true] at hw
    have hl := isOneLine_description hw.1.2
    have hr := isOneLine_description hw.2
    show IsOneLine ("Binary(op=" ++ op.description ++ ", left=" ++ l.description ++ ", right=" ++ r.description ++ ")")
    simp only [isOneLine_append, isOneLine_labels, isOneLine_operator, hl, hr, and_self]
  | .group e, hw => by
    have he := isOneLine_description (e := e) hw
    show IsOneLine ("Grouping(inner=" ++ e.description ++ ")")
    simp only [isOneLine_append, isOneLine_labels, he, and_self]
  | .call f args, hw => by
    simp only [isWellFormed, Bool.and_eq_true] at hw
    have hargs := isOneLine_listing (isOneLine_descriptions hw.2)
    show IsOneLine ("Call(name=" ++ quoted f ++ ", args=" ++ listing (descriptions args) ++ ")")
    simp only [isOneLine_append, isOneLine_labels, isOneLine_quoted, hargs, and_self]
  | .foreign _, hw => by cases hw

theorem isOneLine_descriptions : ∀ {es : List Expr}, allWellFormed es = true →
    ∀ text ∈ descriptions es, IsOneLine text
  | [], _ => fun _ h => by cases h
  | e :: es, hw => by
    simp only [allWellFormed, Bool.and_eq_true] at hw
    show ∀ text ∈ e.description :: descriptions es, IsOneLine text
    rw [List.forall_mem_cons]
    exact ⟨isOneLine_description hw.1, isOneLine_descriptions hw.2⟩

end

theorem isOneLine_evaluated (t : Expr) (limit : Nat) :
    ∀ r ∈ (t.evaluateWithin .standard limit).calls, IsOneLine r.name := by
  have hkeys : ∀ key ∈ FunctionTable.standard.keys, IsOneLine key := by decide +kernel
  exact fun r hr => hkeys _ (name_of_calls r hr)

end Expr

/-! ## The log of an expression -/

/-- The log of an expression, whether it is shown or not. -/
def logged (limits : Limits) (options : Options) (source : String) : List LogEntry :=
  if options.showTree then
    match Expr.parseWithin limits.reading source with
    | .error _ => []
    | .ok tree => [.parsed source tree]
  else (calculate limits source).log

inductive LogEntry.Closes (source : String) : Except EvalError Binary64 → LogEntry → Prop
  | calculated (x : Binary64) : Closes source (.ok x) (.calculated source x)
  | failed {e : EvalError} {d : Diagnostic} (diagnosed : e.diagnostic? = some d) :
      Closes source (.error e) (.failed source d)

section
variable {limits : Limits} {source : String}

theorem logged_of_parse_error {e : ParseError} (h : Expr.parseWithin limits.reading source = .error e)
    (options : Options) : logged limits options source = [] := by
  unfold logged
  split
  · rw [h]
  · rw [calculate, h]

theorem log_of_parse {t : Expr} (h : Expr.parseWithin limits.reading source = .ok t) :
    let evaluation := t.evaluateWithin .standard limits.evaluation
    ∃ closing, LogEntry.Closes source evaluation.outcome closing ∧
      (calculate limits source).log = .parsed source t :: (evaluation.calls.toList.map .called ++ [closing]) := by
  obtain ⟨ts, -, hs⟩ := Expr.settled_of_parse h
  simp only [calculate, h]
  cases he : (t.evaluateWithin .standard limits.evaluation).outcome with
  | ok x => exact ⟨_, .calculated x, rfl⟩
  | error e =>
    obtain ⟨d, hd, -⟩ := EvalError.placeless (Expr.evaluate_error Builtin.isTotal_standard hs.wellFormed he)
    refine ⟨_, .failed hd, ?_⟩
    simp only [hd, Option.toList_some, List.map_singleton, List.cons_append]

/-- The tree first, then, if the tree is evaluated, its calls and last how that ended. -/
theorem logged_of_parse {t : Expr} (h : Expr.parseWithin limits.reading source = .ok t) (options : Options) :
    let evaluation := t.evaluateWithin .standard limits.evaluation
    ∃ closing, LogEntry.Closes source evaluation.outcome closing ∧
      logged limits options source = .parsed source t :: if options.showTree then [] else
        evaluation.calls.toList.map .called ++ [closing] := by
  obtain ⟨closing, hcloses, hlog⟩ := log_of_parse h
  refine ⟨closing, hcloses, ?_⟩
  unfold logged
  split
  · simp only [h]
  · exact hlog

/-! ## Entries that can be written -/

theorem isOneLine_parts : IsOneLine "calc.parse: parsed " ∧ IsOneLine "calc.eval: " ∧ IsOneLine "calc: calculate " ∧
    IsOneLine " -> " ∧ IsOneLine " = " ∧ IsOneLine " failed: " ∧ IsOneLine ": " := by
  decide +kernel

theorem text_parsed (limits : Limits) (source : String) (t : Expr) : (LogEntry.parsed source t).text limits =
    roomFor t.height limits.description Expr.descriptionOverflow
      ("calc.parse: parsed " ++ quoted source ++ " -> " ++ t.description) := by
  rw [LogEntry.text, Expr.describeWithin_eq]
  exact roomFor_map _ _ _

/-- An entry that is written on one line whatever room there is. -/
def LogEntry.IsPlain (entry : LogEntry) : Prop := ∃ line, IsOneLine line ∧ ∀ limits, entry.text limits = .ok line

theorem isPlain_called {r : CallRecord} (h : IsOneLine r.name) : (LogEntry.called r).IsPlain :=
  ⟨_, isOneLine_append.mpr ⟨isOneLine_parts.2.1, isOneLine_record h⟩, fun _ => rfl⟩

theorem isPlain_closing {t : Expr} (hw : t.isWellFormed = true) {limit : Nat} {closing : LogEntry}
    (h : LogEntry.Closes source (t.evaluateWithin .standard limit).outcome closing) : closing.IsPlain := by
  generalize he : (t.evaluateWithin .standard limit).outcome = outcome at h
  cases h with
  | calculated x =>
    refine ⟨_, ?_, fun _ => rfl⟩
    simp only [isOneLine_append, isOneLine_parts, isOneLine_quoted, isOneLine_text, and_self]
  | failed hd =>
    refine ⟨_, ?_, fun _ => rfl⟩
    simp only [isOneLine_append, isOneLine_parts, isOneLine_quoted, isOneLine_diagnostic hw he hd, and_self]

theorem isPlain_logged {t : Expr} (h : Expr.parseWithin limits.reading source = .ok t) (options : Options) :
    ∃ rest, logged limits options source = .parsed source t :: rest ∧ ∀ entry ∈ rest, entry.IsPlain := by
  obtain ⟨ts, -, hs⟩ := Expr.settled_of_parse h
  obtain ⟨closing, hcloses, hlog⟩ := logged_of_parse h options
  refine ⟨_, hlog, ?_⟩
  split
  · simp
  · rw [List.forall_mem_append, List.forall_mem_singleton]
    refine ⟨List.forall_mem_map.mpr fun r hr => ?_, isPlain_closing hs.wellFormed hcloses⟩
    exact isPlain_called (Expr.isOneLine_evaluated t _ r (Array.mem_toList_iff.mp hr))

theorem isOneLine_parsed {t : Expr} (h : Expr.parseWithin limits.reading source = .ok t) :
    IsOneLine ("calc.parse: parsed " ++ quoted source ++ " -> " ++ t.description) := by
  obtain ⟨ts, -, hs⟩ := Expr.settled_of_parse h
  simp only [isOneLine_append, isOneLine_parts, isOneLine_quoted, Expr.isOneLine_description hs.wellFormed, and_self]

end

/-- The lines of a log up to the first entry that cannot be written, and what this one ends the run with. -/
def writtenLog (limits : Limits) : List LogEntry → List String × Option Abort
  | [] => ([], none)
  | entry :: rest =>
    match entry.text limits with
    | .error e => ([], some (.unwritable e))
    | .ok line => (line :: (writtenLog limits rest).1, (writtenLog limits rest).2)

theorem writtenLog_plain {limits : Limits} : ∀ {log : List LogEntry}, (∀ entry ∈ log, entry.IsPlain) →
    (∀ line ∈ (writtenLog limits log).1, IsOneLine line) ∧ (writtenLog limits log).2 = none
  | [], _ => ⟨by simp [writtenLog], rfl⟩
  | entry :: rest, h => by
    rw [List.forall_mem_cons] at h
    obtain ⟨⟨line, hline, htext⟩, hrest⟩ := h
    obtain ⟨hlines, hnone⟩ := writtenLog_plain hrest
    simp only [writtenLog, htext limits]
    exact ⟨List.forall_mem_cons.mpr ⟨hline, hlines⟩, hnone⟩

theorem writtenLog_complete {limits : Limits} : ∀ {log : List LogEntry}, (writtenLog limits log).2 = none →
    log.map (LogEntry.text limits) = (writtenLog limits log).1.map .ok
  | [], _ => rfl
  | entry :: rest, h => by
    rw [writtenLog] at h ⊢
    cases htext : entry.text limits with
    | error e =>
      simp only [htext] at h
      cases h
    | ok line =>
      simp only [htext] at h ⊢
      rw [List.map_cons, htext, writtenLog_complete h, List.map_cons]

/-- A log is written in full, or not at all if its tree is too tall to be described. -/
theorem writtenLog_logged {limits : Limits} {source : String} {t : Expr}
    (h : Expr.parseWithin limits.reading source = .ok t) (options : Options) :
    (t.height ≤ limits.description → (writtenLog limits (logged limits options source)).2 = none) ∧
      (limits.description < t.height →
        writtenLog limits (logged limits options source) = ([], some (.unwritable Expr.descriptionOverflow))) ∧
      ∀ line ∈ (writtenLog limits (logged limits options source)).1, IsOneLine line := by
  obtain ⟨rest, hlog, hplain⟩ := isPlain_logged h options
  obtain ⟨hlines, hnone⟩ := @writtenLog_plain limits _ hplain
  rw [hlog, writtenLog, text_parsed]
  rcases Nat.lt_or_ge limits.description t.height with hlt | hle
  · rw [roomFor_of_lt hlt]
    exact ⟨fun hle => absurd hlt (Nat.not_lt.mpr hle), fun _ => rfl, by simp⟩
  · rw [roomFor_of_le hle]
    exact ⟨fun _ => hnone, fun hlt => absurd hlt (Nat.not_lt.mpr hle),
      List.forall_mem_cons.mpr ⟨isOneLine_parsed h, hlines⟩⟩

/-! ## How the lines of a log begin -/

def logMarks : List String := ["calc.parse: ", "calc.eval: ", "calc: calculate "]

def isLogLine (line : String) : Bool := logMarks.any fun mark => line.toList.take mark.length == mark.toList

theorem isLogLine_append (mark rest : String) (h : mark ∈ logMarks) : isLogLine (mark ++ rest) = true := by
  rw [isLogLine, List.any_eq_true]
  refine ⟨mark, h, ?_⟩
  rw [String.toList_append, ← String.length_toList, List.take_left, beq_self_eq_true]

theorem isLogLine_text {limits : Limits} {entry : LogEntry} {line : String} (h : entry.text limits = .ok line) :
    isLogLine line = true := by
  have hparsed : "calc.parse: parsed " = "calc.parse: " ++ "parsed " := by decide +kernel
  cases entry with
  | parsed source t =>
    rw [text_parsed] at h
    rw [← (roomFor_eq_ok h).2, hparsed]
    simp only [String.append_assoc]
    exact isLogLine_append _ _ (by simp [logMarks])
  | called r =>
    cases h
    exact isLogLine_append _ _ (by simp [logMarks])
  | calculated | failed =>
    cases h
    simp only [String.append_assoc]
    exact isLogLine_append _ _ (by simp [logMarks])

theorem isLogLine_written {limits : Limits} : ∀ {log : List LogEntry}, ∀ line ∈ (writtenLog limits log).1,
    isLogLine line = true
  | [] => by simp [writtenLog]
  | entry :: rest => by
    rw [writtenLog]
    split
    · simp
    · rename_i line htext
      exact List.forall_mem_cons.mpr ⟨isLogLine_text htext, isLogLine_written⟩

/-- No kind of error begins as the last lines of logs go on. -/
theorem isLogLine_diagnostic (d : Diagnostic) : isLogLine ("calc: " ++ d.kind ++ ": " ++ d.text) = false := by
  have hkind : ∀ c : Category, 7 ≤ ("calc: " ++ c.kind).toList.length ∧
      ∀ mark ∈ logMarks, 7 ≤ mark.length ∧ mark.toList.take 7 ≠ ("calc: " ++ c.kind).toList.take 7 := by
    intro c
    cases c <;> decide +kernel
  obtain ⟨hlong, hdiffer⟩ := hkind d.category
  rw [isLogLine, List.any_eq_false]
  intro mark hmark htake
  obtain ⟨hmarkLong, hmarkDiffers⟩ := hdiffer mark hmark
  apply hmarkDiffers
  rw [String.append_assoc, String.toList_append, beq_iff_eq] at htake
  rw [← htake, List.take_take, Nat.min_eq_left hmarkLong]
  exact List.take_append_of_le_length hlong

end Calculator
