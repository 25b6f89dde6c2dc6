import Calculator.Proofs.Evaluation.Rules
import Calculator.Proofs.Grammar.Calls

/-!
# The order of calls

`calls_of_source`: an evaluation that succeeds has made every call of the text once, in the order in which the calls
are closed, under its name in lower case and with as many arguments as the text gives it.
-/

namespace Calculator

/-- A call as its record shows it. -/
def CallRecord.written (r : CallRecord) : WrittenCall := ⟨r.name, r.arguments.length⟩

def WrittenCall.lowered (c : WrittenCall) : WrittenCall := ⟨Text.lower c.function, c.arguments⟩

namespace Expr

/-- The lines logged are those of the calls, one for each, in their order. -/
def Records (events : Array Event) (calls : List WrittenCall) : Prop :=
  (events.toList.filterMap Event.record?).map CallRecord.written = calls.map WrittenCall.lowered

theorem Records.append {before after : Array Event} {cs ds : List WrittenCall} (h : Records before cs)
    (h' : Records after ds) : Records (before ++ after) (cs ++ ds) := by
  unfold Records at h h' ⊢
  rw [Array.toList_append, List.filterMap_append, List.map_append, List.map_append, h, h']

mutual

theorem records_of_yields {env : Environment} : ∀ {e : Expr} {outcome : Except EvalError Binary64}
    {events : Array Event}, Yields env e outcome events → ∀ {x : Binary64}, outcome = .ok x →
    Records events e.calls
  | .number _, _, _, h, _, _ => by
    cases h
    rfl
  | .name _, _, _, h, _, _ => by
    cases h <;> rfl
  | .signed _ e, _, _, h, _, hx => by
    rw [calls]
    cases h with
    | plus operand => exact records_of_yields operand rfl
    | minus operand => exact records_of_yields operand rfl
    | unknownSign => cases hx
    | operandFails => cases hx
  | .binary _ l r, _, _, h, _, hx => by
    rw [calls]
    cases h with
    | applied left right => exact (records_of_yields left rfl).append (records_of_yields right rfl)
    | leftFails => cases hx
    | leftEscapes => cases hx
    | rightEscapes => cases hx
    | rightFails => cases hx
  | .group e, _, _, h, _, hx => by
    rw [calls]
    cases h with
    | group inner => exact records_of_yields inner hx
  | .call f args, _, _, h, _, hx => by
    rw [calls]
    cases h with
    | called arguments =>
      obtain ⟨hlength, hrecords⟩ := records_of_yieldsAll arguments rfl
      refine hrecords.append ?_
      rw [Records, ← hlength]
      rfl
    | argumentFails => cases hx
    | unknownFunction => cases hx
    | wrongCount => cases hx
    | callRaises => cases hx
  | .foreign _, _, _, h, _, _ => by
    cases h
    rfl

theorem records_of_yieldsAll {env : Environment} : ∀ {es : List Expr} {outcome : Except EvalError (List Binary64)}
    {events : Array Event}, YieldsAll env es outcome events → ∀ {values : List Binary64},
    outcome = .ok values → values.length = es.length ∧ Records events (allCalls es)
  | [], _, _, h, _, hv => by
    cases h
    cases hv
    exact ⟨rfl, rfl⟩
  | e :: es, _, _, h, _, hv => by
    rw [allCalls]
    cases h with
    | cons first rest =>
      cases hv
      obtain ⟨hlength, hrecords⟩ := records_of_yieldsAll rest rfl
      exact ⟨congrArg Nat.succ hlength, (records_of_yields first rfl).append hrecords⟩
    | firstFails => cases hv
    | restFails => cases hv

end

theorem records_of_evaluate {env : Environment} {limit : Nat} {e : Expr} {x : Binary64}
    (h : (e.evaluateWithin env limit).outcome = .ok x) : Records (e.evaluateWithin env limit).events e.calls := by
  rcases evaluateWithin_meets env limit e with hm | ⟨hdeep, -⟩
  · rw [hm] at h ⊢
    exact records_of_yields (yields_meaning env e) h
  · rw [hdeep] at h
    cases h

theorem calls_of_source {limit limit' : Nat} {source : String} {t : Expr} {env : Environment} {x : Binary64}
    (ht : parseWithin limit source = .ok t) (hx : (t.evaluateWithin env limit').outcome = .ok x) :
    ∃ ts, tokens source = .ok ts ∧ (t.evaluateWithin env limit').calls.toList.map CallRecord.written =
      (writtenCalls (ts.map (·.lexeme))).map WrittenCall.lowered := by
  obtain ⟨ts, hts, hcalls⟩ := Grammar.writtenCalls_of_parse ht
  refine ⟨ts, hts, ?_⟩
  rw [hcalls, Evaluation.calls, Array.toList_filterMap]
  exact records_of_evaluate hx

theorem calls_of_source_nested : ∃ (env : Environment) (t : Expr) (x : Binary64),
    parseWithin 10 "F(g(), (F(a, G())))" = .ok t ∧ (t.evaluateWithin env 10).outcome = .ok x ∧
      (t.evaluateWithin env 10).calls.toList.map CallRecord.written = [⟨"g", 0⟩, ⟨"g", 0⟩, ⟨"f", 2⟩, ⟨"f", 2⟩] := by
  let env : Environment :=
    ⟨⟨[⟨"f", 2, fun _ => .ok .nan⟩, ⟨"g", 0, fun _ => .ok .nan⟩], by decide +kernel⟩, ⟨[("a", .nan)]⟩⟩
  let t := call "F" [call "g" [], group (call "F" [name "a", call "G" []])]
  have ht : parseWithin 10 "F(g(), (F(a, G())))" = .ok t := rfl
  have hx : (t.evaluateWithin env 10).outcome = .ok .nan := by decide +kernel
  obtain ⟨ts, hts, hcalls⟩ := calls_of_source ht hx
  have htokens : tokens "F(g(), (F(a, G())))" = .ok _ := rfl
  rw [htokens] at hts
  cases hts
  exact ⟨env, t, .nan, ht, hx, hcalls.trans (by decide +kernel)⟩

end Expr
end Calculator
