import Calculator.Proofs.Evaluation.Rules
import Calculator.Proofs.Grammar.Derivation
import Mathlib.Data.List.Nodup

/-!
# The functions that an evaluation runs

`evaluate_invocations`: an evaluation, whether or not it succeeds, runs functions only for calls of the tree, for none
of them twice, each with the values of all the arguments and as many as it demands. A run that returns is followed by
the one line that is logged for it, and no other line is logged; a run that is refused is the last event of all.
That the events leave no run out is said through the implementations: what they do with other arguments is without
effect.
-/

namespace Calculator

/-! ## Nodes of a tree -/

namespace Expr

/-- The trees right below the root. -/
def parts : Expr → List Expr
  | number _ | name _ | foreign _ => []
  | signed _ e | group e => [e]
  | binary _ l r => [l, r]
  | call _ args => args

/-- The tree at a place, which says into which part to go at every level. -/
def node? : Expr → List Nat → Option Expr
  | e, [] => some e
  | e, i :: place =>
    match e.parts[i]? with
    | none => none
    | some part => part.node? place

def HasValue (env : Environment) (e : Expr) (x : Binary64) : Prop :=
  ∃ limit, (e.evaluateWithin env limit).outcome = .ok x

end Expr

/-! ## Invocations -/

structure Invocation where
  place : List Nat
  name : String
  builtin : Builtin
  arguments : List Binary64

namespace Invocation

def result (v : Invocation) : Except MathError Binary64 := v.builtin.apply v.arguments

def events (v : Invocation) : List Event :=
  .ran v.builtin v.arguments ::
    match v.result with
    | .ok x => [.logged ⟨v.name, v.arguments, x⟩]
    | .error _ => []

def under (i : Nat) (v : Invocation) : Invocation := { v with place := i :: v.place }

structure IsLegal (env : Environment) (e : Expr) (v : Invocation) : Prop where
  isCall : ∃ f args, e.node? v.place = some (.call f args) ∧ v.name = Text.lower f ∧
    List.Forall₂ (Expr.HasValue env) args v.arguments
  isFound : env.functions.find? v.name = some v.builtin
  isCounted : (v.arguments.length : Int) = v.builtin.arity

theorem IsLegal.under {env : Environment} {e part : Expr} {i : Nat} (hpart : e.parts[i]? = some part) {v : Invocation}
    (h : v.IsLegal env part) : (v.under i).IsLegal env e where
  isCall := by
    obtain ⟨f, args, hnode, hname, hvalues⟩ := h.isCall
    refine ⟨f, args, ?_, hname, hvalues⟩
    rw [Invocation.under, Expr.node?]
    simp only [hpart, hnode]
  isFound := h.isFound
  isCounted := h.isCounted

/-- All return, except that the last may be refused in one of these ways. -/
def Return (refused : MathError → Prop) (vs : List Invocation) : Prop :=
  ∀ earlier v later m, vs = earlier ++ v :: later → v.result = .error m → later = [] ∧ refused m

namespace Return
variable {refused refused' : MathError → Prop} {vs ws : List Invocation}

theorem nil : Return refused [] := fun _ _ _ _ h => by simp at h

theorem mono (h : Return refused vs) (hr : ∀ m, refused m → refused' m) : Return refused' vs :=
  fun earlier v later m hvs hm => (h earlier v later m hvs hm).imp_right (hr m)

theorem append (hv : Return (fun _ => False) vs) (hw : Return refused ws) : Return refused (vs ++ ws) := by
  intro earlier v later m h hm
  rcases List.append_eq_append_iff.mp h with ⟨between, -, hws⟩ | ⟨between, hvs, hws⟩
  · exact hw between v later m hws hm
  · cases between with
    | nil => exact hw [] v later m hws.symm hm
    | cons w between =>
      obtain ⟨rfl, -⟩ := List.cons.inj hws
      exact (hv earlier v between m hvs hm).2.elim

theorem under (h : Return refused vs) (i : Nat) : Return refused (vs.map (·.under i)) := by
  intro earlier v later m hmap hm
  obtain ⟨before, behind, rfl, -, hbehind⟩ := List.map_eq_append_iff.mp hmap
  obtain ⟨w, after, rfl, rfl, rfl⟩ := List.map_eq_cons_iff.mp hbehind
  obtain ⟨rfl, hrefused⟩ := h before w after m rfl hm
  exact ⟨rfl, hrefused⟩

theorem singleton {v : Invocation} (h : ∀ m, v.result = .error m → refused m) : Return refused [v] := by
  intro earlier w later m hvs hm
  have hone : earlier = [] ∧ w = v ∧ later = [] := by
    cases earlier with
    | nil => simpa [eq_comm] using hvs
    | cons u earlier => simp at hvs
  obtain ⟨-, rfl, rfl⟩ := hone
  exact ⟨rfl, h m hm⟩

end Return
end Invocation

/-- The events are those of legal runs, none of which is for the same call as another. -/
def Accounts (env : Environment) (e : Expr) (refused : MathError → Prop) (events : List Event) : Prop :=
  ∃ invocations : List Invocation, (invocations.map Invocation.place).Nodup ∧
    (∀ v ∈ invocations, v.IsLegal env e) ∧ events = invocations.flatMap Invocation.events ∧
    Invocation.Return refused invocations

def AccountsAll (env : Environment) (i : Nat) (es : List Expr) (refused : MathError → Prop) (events : List Event) :
    Prop :=
  ∃ invocations : List Invocation, (invocations.map Invocation.place).Nodup ∧
    (∀ v ∈ invocations, ∃ j e v', es[j]? = some e ∧ Invocation.IsLegal env e v' ∧ v = v'.under (i + j)) ∧
    events = invocations.flatMap Invocation.events ∧ Invocation.Return refused invocations

/-- How an outcome passes on that a run is refused. -/
def Refuses {α : Type} (outcome : Except EvalError α) (m : MathError) : Prop := outcome = .error (.raised m)

theorem Refuses.bind {α β : Type} {outcome : Except EvalError α} {m : MathError} (h : Refuses outcome m)
    (f : α → Except EvalError β) : Refuses (outcome.bind f) m := by
  rw [Refuses] at h
  rw [h]
  rfl

section
variable {env : Environment} {refused refused' : MathError → Prop}

theorem Accounts.nil (e : Expr) : Accounts env e refused [] := ⟨[], List.nodup_nil, by simp, rfl, .nil⟩

theorem Accounts.mono {e : Expr} {events : List Event} (h : Accounts env e refused events)
    (hr : ∀ m, refused m → refused' m) : Accounts env e refused' events := by
  obtain ⟨vs, hnodup, hlegal, hevents, hreturn⟩ := h
  exact ⟨vs, hnodup, hlegal, hevents, hreturn.mono hr⟩

namespace AccountsAll

theorem nil (i : Nat) (es : List Expr) : AccountsAll env i es refused [] := ⟨[], List.nodup_nil, by simp, rfl, .nil⟩

theorem mono {i : Nat} {es : List Expr} {events : List Event} (h : AccountsAll env i es refused events)
    (hr : ∀ m, refused m → refused' m) : AccountsAll env i es refused' events := by
  obtain ⟨vs, hnodup, hlegal, hevents, hreturn⟩ := h
  exact ⟨vs, hnodup, hlegal, hevents, hreturn.mono hr⟩

theorem first {e : Expr} {events : List Event} (h : Accounts env e refused events) (i : Nat) (es : List Expr) :
    AccountsAll env i (e :: es) refused events := by
  obtain ⟨vs, hnodup, hlegal, rfl, hreturn⟩ := h
  refine ⟨vs.map (·.under i), ?_, ?_, ?_, hreturn.under i⟩
  · have hplace : Invocation.place ∘ (·.under i) = (i :: ·) ∘ Invocation.place := rfl
    rw [List.map_map, hplace, ← List.map_map]
    exact hnodup.map List.cons_injective
  · intro v hv
    obtain ⟨v', hv', rfl⟩ := List.mem_map.mp hv
    exact ⟨0, e, v', rfl, hlegal v' hv', rfl⟩
  · rw [List.flatMap_map]
    rfl

theorem cons {i : Nat} {e : Expr} {es : List Expr} {first rest : List Event}
    (he : Accounts env e (fun _ => False) first) (hes : AccountsAll env (i + 1) es refused rest) :
    AccountsAll env i (e :: es) refused (first ++ rest) := by
  obtain ⟨vs, hnodup, hlegal, rfl, hreturn⟩ := AccountsAll.first he i []
  obtain ⟨ws, hnodup', hlegal', rfl, hreturn'⟩ := hes
  refine ⟨vs ++ ws, ?_, ?_, List.flatMap_append.symm, hreturn.append hreturn'⟩
  · rw [List.map_append, List.nodup_append]
    refine ⟨hnodup, hnodup', ?_⟩
    intro p hp q hq
    obtain ⟨v, hv, rfl⟩ := List.mem_map.mp hp
    obtain ⟨w, hw, rfl⟩ := List.mem_map.mp hq
    obtain ⟨k, part, v', hk, -, rfl⟩ := hlegal v hv
    obtain ⟨j, -, w', -, -, rfl⟩ := hlegal' w hw
    obtain rfl : k = 0 := by
      by_contra hne
      rw [List.getElem?_cons, if_neg hne] at hk
      cases hk
    simp only [Invocation.under, ne_eq, List.cons.injEq, not_and]
    omega
  · intro v hv
    rcases List.mem_append.mp hv with hv | hv
    · obtain ⟨k, e', v', hk, hv', rfl⟩ := hlegal v hv
      cases k with
      | zero => exact ⟨0, e', v', hk, hv', rfl⟩
      | succ k => cases hk
    · obtain ⟨j, e', v', he', hv', rfl⟩ := hlegal' v hv
      exact ⟨j + 1, e', v', he', hv', by rw [Nat.add_assoc, Nat.add_comm 1 j]⟩

theorem accounts {e : Expr} {events : List Event} (h : AccountsAll env 0 e.parts refused events) :
    Accounts env e refused events := by
  obtain ⟨vs, hnodup, hlegal, hevents, hreturn⟩ := h
  refine ⟨vs, hnodup, ?_, hevents, hreturn⟩
  intro v hv
  obtain ⟨j, part, v', hpart, hv', rfl⟩ := hlegal v hv
  rw [Nat.zero_add]
  exact hv'.under hpart

theorem run {f : String} {args : List Expr} {values : List Binary64} {events : List Event} {b : Builtin}
    (h : AccountsAll env 0 args (fun _ => False) events) (hvalues : List.Forall₂ (Expr.HasValue env) args values)
    (hb : env.functions.find? (Text.lower f) = some b) (hc : (values.length : Int) = b.arity) :
    Accounts env (.call f args) (b.apply values = .error ·)
      (events ++ (Invocation.mk [] (Text.lower f) b values).events) := by
  obtain ⟨vs, hnodup, hlegal, rfl, hreturn⟩ := h
  let own : Invocation := ⟨[], Text.lower f, b, values⟩
  have hown : own.IsLegal env (.call f args) := ⟨⟨f, args, rfl, rfl, hvalues⟩, hb, hc⟩
  refine ⟨vs ++ [own], ?_, ?_, ?_, hreturn.append (.singleton fun m hm => hm)⟩
  · rw [List.map_append, List.nodup_append]
    refine ⟨hnodup, List.nodup_singleton _, ?_⟩
    intro p hp q hq
    obtain ⟨v, hv, rfl⟩ := List.mem_map.mp hp
    obtain ⟨j, -, v', -, -, rfl⟩ := hlegal v hv
    obtain rfl : q = [] := List.mem_singleton.mp hq
    exact List.cons_ne_nil _ _
  · intro v hv
    rcases List.mem_append.mp hv with hv | hv
    · obtain ⟨j, part, v', hpart, hv', rfl⟩ := hlegal v hv
      rw [Nat.zero_add]
      exact hv'.under hpart
    · rw [List.mem_singleton.mp hv]
      exact hown
  · rw [List.flatMap_append, List.flatMap_singleton]

theorem call {f : String} {args : List Expr} {values : List Binary64} {events : List Event}
    (h : AccountsAll env 0 args (fun _ => False) events) (hvalues : List.Forall₂ (Expr.HasValue env) args values) :
    Accounts env (.call f args) (Refuses (env.call f values).outcome)
      (events ++ (env.call f values).events.toList) := by
  cases hb : env.functions.find? (Text.lower f) with
  | none =>
    rw [Environment.call_unknown hb, Evaluation.failure, Array.toList_empty, List.append_nil]
    exact accounts (h.mono fun _ => False.elim)
  | some b =>
    by_cases hc : (values.length : Int) = b.arity
    · have hrun := h.run hvalues hb hc
      unfold Invocation.events Invocation.result at hrun
      cases hx : b.apply values with
      | ok x =>
        rw [Environment.call_returns hb hc hx]
        simp only [hx] at hrun
        exact hrun.mono fun m hm => nomatch hm
      | error m =>
        rw [Environment.call_raises hb hc hx]
        simp only [hx] at hrun
        exact hrun.mono fun m' hm => by cases hm; rfl
    · rw [Environment.call_wrongCount hb hc, Evaluation.failure, Array.toList_empty, List.append_nil]
      exact accounts (h.mono fun _ => False.elim)

end AccountsAll

theorem Accounts.left {l : Expr} {events : List Event} (h : Accounts env l refused events) (op : Operator) (r : Expr) :
    Accounts env (.binary op l r) refused events :=
  (AccountsAll.first h 0 [r]).accounts

theorem Accounts.binary {l r : Expr} {before after : List Event} (hl : Accounts env l (fun _ => False) before)
    (hr : Accounts env r refused after) (op : Operator) : Accounts env (.binary op l r) refused (before ++ after) :=
  (AccountsAll.cons hl (.first hr 1 [])).accounts

theorem Accounts.inner {e inner : Expr} {events : List Event} (h : Accounts env inner refused events)
    (he : e.parts = [inner]) : Accounts env e refused events := by
  have hall := AccountsAll.first h 0 []
  rw [← he] at hall
  exact hall.accounts

end

/-! ## Evaluations -/

namespace Evaluation

theorem not_refuses_of_stays {x : Evaluation} (h : x.escapes = false) (m : MathError) : ¬Refuses x.outcome m :=
  fun hm => by cases escapes_eq_false_iff.mp h _ hm

theorem Refuses.combine {op : Operator} {left right : Evaluation} {m : MathError} (h : Refuses right.outcome m) :
    Refuses (combine op left right).outcome m := by
  rw [Refuses] at h
  unfold Evaluation.combine
  rw [h]
  cases left.outcome <;> rfl

section
variable {env : Environment} {evaluate : Expr → Evaluation}
  (hev : ∀ e, Accounts env e (Refuses (evaluate e).outcome) (evaluate e).events.toList)
include hev

theorem accounts_chain : ∀ (links : List (Operator × Expr)) {e : Expr} {left : Evaluation},
    Accounts env e (Refuses left.outcome) left.events.toList →
    Accounts env (Grammar.joinAll e links) (Refuses (chain evaluate left links).outcome)
      (chain evaluate left links).events.toList
  | [], _, _, h => h
  | (op, right) :: links, e, left, h => by
    rw [chain]
    split
    · -- the rest of the chain is given up
      rename_i hescapes
      have hrest := accounts_chain links (h.left op right)
      rwa [chain_of_escapes hescapes] at hrest
    · rename_i hstays
      have hleft : Accounts env e (fun _ => False) left.events.toList :=
        h.mono (not_refuses_of_stays (eq_false_of_ne_true hstays))
      refine accounts_chain links ?_
      rw [combine, Array.toList_append]
      exact hleft.binary ((hev right).mono fun m => Refuses.combine) op

theorem accounts_arguments (hvalue : ∀ e x, (evaluate e).outcome = .ok x → e.HasValue env x) :
    ∀ (es : List Expr) (i : Nat) (values : List Binary64) (events : Array Event),
    ∃ own, (arguments evaluate values events es).2.toList = events.toList ++ own ∧
      AccountsAll env i es (Refuses (arguments evaluate values events es).1) own ∧
      ∀ all, (arguments evaluate values events es).1 = .ok all →
        ∃ rest, all = values.reverse ++ rest ∧ List.Forall₂ (Expr.HasValue env) es rest
  | [], i, values, events => ⟨[], by simp [arguments], .nil i [], fun all h => ⟨[], by cases h; simp, .nil⟩⟩
  | e :: es, i, values, events => by
    have he := hev e
    rw [arguments]
    cases ho : (evaluate e).outcome with
    | error error =>
      rw [ho] at he
      refine ⟨(evaluate e).events.toList, Array.toList_append, .first (he.mono ?_) i es, fun all h => by cases h⟩
      intro m hm
      cases hm
      rfl
    | ok x =>
      rw [ho] at he
      obtain ⟨own, hevents, haccounts, hvalues⟩ :=
        accounts_arguments hvalue es (i + 1) (x :: values) (events ++ (evaluate e).events)
      refine ⟨(evaluate e).events.toList ++ own, ?_, .cons (he.mono fun m hm => by cases hm) haccounts, fun all h => ?_⟩
      · simp only [hevents, Array.toList_append, List.append_assoc]
      · obtain ⟨rest, rfl, hrest⟩ := hvalues all h
        exact ⟨x :: rest, by simp, .cons (hvalue e x ho) hrest⟩

end

end Evaluation

namespace Expr

theorem joinAll_spine : ∀ (e : Expr) (links : List (Operator × Expr)),
    Grammar.joinAll (e.spine links).1 (e.spine links).2 = Grammar.joinAll e links
  | binary op l r, links => joinAll_spine l ((op, r) :: links)
  | number _, _ | name _, _ | signed _ _, _ | group _, _ | call _ _, _ | foreign _, _ => rfl

theorem accounts_evaluateWithin (env : Environment) : ∀ (limit : Nat) (e : Expr),
    Accounts env e (Refuses (e.evaluateWithin env limit).outcome) (e.evaluateWithin env limit).events.toList
  | 0, e => .nil e
  | limit + 1, e => by
    have hev := accounts_evaluateWithin env limit
    cases e with
    | number x => exact .nil _
    | name n => exact .nil _
    | foreign kind => exact .nil _
    | group e => exact (hev e).inner rfl
    | signed s e => exact ((hev e).mono fun m hm => hm.bind s.apply).inner rfl
    | binary op l r =>
      have := Evaluation.accounts_chain hev (l.spine [(op, r)]).2 (hev (l.spine [(op, r)]).1)
      rwa [joinAll_spine] at this
    | call f args =>
      obtain ⟨own, hevents, haccounts, hvalues⟩ :=
        Evaluation.accounts_arguments hev (fun e x h => ⟨limit, h⟩) args 0 [] #[]
      rw [evaluateWithin]
      revert hevents haccounts hvalues
      obtain ⟨outcome, events⟩ := Evaluation.arguments (evaluateWithin env limit) [] #[] args
      rintro rfl haccounts hvalues
      cases outcome with
      | error error =>
        refine AccountsAll.accounts (haccounts.mono fun m hm => ?_)
        cases hm
        rfl
      | ok values =>
        obtain ⟨_, rfl, hrest⟩ := hvalues values rfl
        simp only [Array.toList_append]
        exact (haccounts.mono fun m hm => by cases hm).call hrest

end Expr

/-! ## Other implementations -/

def Builtin.reimplemented (g : Builtin → List Binary64 → Except MathError Binary64) (b : Builtin) : Builtin :=
  { b with apply := g b }

/-- The same functions with other implementations. -/
def FunctionTable.reimplemented (g : Builtin → List Binary64 → Except MathError Binary64) (t : FunctionTable) :
    FunctionTable where
  builtins := t.builtins.map (Builtin.reimplemented g)
  keys_nodup := by
    rw [List.map_map]
    exact t.keys_nodup

def Environment.reimplemented (g : Builtin → List Binary64 → Except MathError Binary64) (env : Environment) :
    Environment :=
  ⟨env.functions.reimplemented g, env.constants⟩

def Event.reimplemented (g : Builtin → List Binary64 → Except MathError Binary64) : Event → Event
  | ran b arguments => ran (b.reimplemented g) arguments
  | logged record => logged record

def Evaluation.reimplemented (g : Builtin → List Binary64 → Except MathError Binary64) (x : Evaluation) : Evaluation :=
  ⟨x.outcome, x.events.map (Event.reimplemented g)⟩

section
variable {env : Environment} {g : Builtin → List Binary64 → Except MathError Binary64}

theorem Environment.find?_reimplemented (key : String) :
    (env.reimplemented g).functions.find? key = (env.functions.find? key).map (Builtin.reimplemented g) := by
  rw [FunctionTable.find?, reimplemented, FunctionTable.reimplemented, List.find?_map]
  rfl

/-- The other implementations do the same in every run. -/
def Agrees (g : Builtin → List Binary64 → Except MathError Binary64) (events : Array Event) : Prop :=
  ∀ b arguments, .ran b arguments ∈ events → g b arguments = b.apply arguments

theorem Agrees.left {before after : Array Event} (h : Agrees g (before ++ after)) : Agrees g before :=
  fun b arguments hran => h b arguments (Array.mem_append_left _ hran)

theorem Agrees.right {before after : Array Event} (h : Agrees g (before ++ after)) : Agrees g after :=
  fun b arguments hran => h b arguments (Array.mem_append_right _ hran)

theorem Evaluation.reimplemented_empty (outcome : Except EvalError Binary64) :
    Evaluation.reimplemented g ⟨outcome, #[]⟩ = ⟨outcome, #[]⟩ := by
  simp [reimplemented]

theorem Environment.call_reimplemented {f : String} {values : List Binary64}
    (h : Agrees g (env.call f values).events) :
    (env.reimplemented g).call f values = (env.call f values).reimplemented g := by
  cases hb : env.functions.find? (Text.lower f) with
  | none =>
    have hfind : (env.reimplemented g).functions.find? (Text.lower f) = none := by
      rw [find?_reimplemented, hb, Option.map_none]
    rw [call_unknown hb, call_unknown hfind]
    exact (Evaluation.reimplemented_empty _).symm
  | some b =>
    have hfind : (env.reimplemented g).functions.find? (Text.lower f) = some (b.reimplemented g) := by
      rw [find?_reimplemented, hb, Option.map_some]
    by_cases hc : (values.length : Int) = b.arity
    · cases hx : b.apply values with
      | ok x =>
        rw [call_returns hb hc hx] at h ⊢
        have hsame : (b.reimplemented g).apply values = .ok x := (h b values (by simp)).trans hx
        rw [call_returns hfind hc hsame]
        simp [Evaluation.reimplemented, Event.reimplemented]
      | error m =>
        rw [call_raises hb hc hx] at h ⊢
        have hsame : (b.reimplemented g).apply values = .error m := (h b values (by simp)).trans hx
        rw [call_raises hfind hc hsame]
        simp [Evaluation.reimplemented, Event.reimplemented]
    · rw [call_wrongCount hb hc, call_wrongCount hfind hc]
      exact (Evaluation.reimplemented_empty _).symm

namespace Evaluation

theorem combine_reimplemented (op : Operator) (left right : Evaluation) :
    combine op (left.reimplemented g) (right.reimplemented g) = (combine op left right).reimplemented g := by
  simp only [combine, reimplemented, Array.map_append]

section
variable {evaluate evaluate' : Expr → Evaluation}

theorem agrees_of_chain : ∀ (links : List (Operator × Expr)) {left : Evaluation},
    Agrees g (chain evaluate left links).events → Agrees g left.events
  | [], _, h => h
  | (op, right) :: links, left, h => by
    rw [chain] at h
    split at h
    · exact h
    · exact (agrees_of_chain links h).left

theorem agrees_of_arguments : ∀ (es : List Expr) {values : List Binary64} {events : Array Event},
    Agrees g (arguments evaluate values events es).2 → Agrees g events
  | [], _, _, h => h
  | e :: es, values, events, h => by
    rw [arguments] at h
    cases ho : (evaluate e).outcome with
    | error error =>
      simp only [ho] at h
      exact h.left
    | ok x =>
      simp only [ho] at h
      exact (agrees_of_arguments es h).left

variable (hev : ∀ e, Agrees g (evaluate e).events → evaluate' e = (evaluate e).reimplemented g)
include hev

theorem chain_reimplemented : ∀ (links : List (Operator × Expr)) (left : Evaluation),
    Agrees g (chain evaluate left links).events →
    chain evaluate' (left.reimplemented g) links = (chain evaluate left links).reimplemented g
  | [], _, _ => rfl
  | (op, right) :: links, left, h => by
    rw [chain] at h ⊢
    have hescapes : (left.reimplemented g).escapes = left.escapes := rfl
    rw [chain, hescapes]
    split
    · rfl
    · rename_i hstays
      rw [if_neg hstays] at h
      rw [hev right (agrees_of_chain links h).right, combine_reimplemented]
      exact chain_reimplemented links _ h

theorem arguments_reimplemented : ∀ (es : List Expr) (values : List Binary64) (events : Array Event),
    Agrees g (arguments evaluate values events es).2 →
    arguments evaluate' values (events.map (Event.reimplemented g)) es =
      ((arguments evaluate values events es).1, (arguments evaluate values events es).2.map (Event.reimplemented g))
  | [], _, _, _ => rfl
  | e :: es, values, events, h => by
    rw [arguments] at h ⊢
    rw [arguments]
    cases ho : (evaluate e).outcome with
    | error error =>
      simp only [ho] at h
      simp only [hev e h.right, reimplemented, ho, Array.map_append]
    | ok x =>
      simp only [ho] at h
      simp only [hev e (agrees_of_arguments es h).right, reimplemented, ho, ← Array.map_append]
      exact arguments_reimplemented es _ _ h

end

end Evaluation

theorem Expr.evaluateWithin_reimplemented : ∀ (limit : Nat) (e : Expr),
    Agrees g (e.evaluateWithin env limit).events →
    e.evaluateWithin (env.reimplemented g) limit = (e.evaluateWithin env limit).reimplemented g
  | 0, _, _ => (Evaluation.reimplemented_empty _).symm
  | limit + 1, e, h => by
    have hev := Expr.evaluateWithin_reimplemented limit
    cases e with
    | number x => exact (Evaluation.reimplemented_empty _).symm
    | name n => exact (Evaluation.reimplemented_empty _).symm
    | foreign kind => exact (Evaluation.reimplemented_empty _).symm
    | group e => exact hev e h
    | signed s e =>
      rw [evaluateWithin] at h ⊢
      simp only at h ⊢
      rw [hev e h, evaluateWithin]
      rfl
    | binary op l r =>
      rw [evaluateWithin] at h ⊢
      rw [evaluateWithin]
      revert h
      obtain ⟨leftmost, links⟩ := l.spine [(op, r)]
      intro h
      simp only at h ⊢
      rw [hev leftmost (Evaluation.agrees_of_chain links h)]
      exact Evaluation.chain_reimplemented hev links _ h
    | call f args =>
      rw [evaluateWithin] at h ⊢
      rw [evaluateWithin]
      have hargs := Evaluation.arguments_reimplemented hev args [] #[]
      rw [Array.map_empty] at hargs
      revert h hargs
      obtain ⟨outcome, events⟩ := Evaluation.arguments (evaluateWithin env limit) [] #[] args
      intro h hargs
      cases outcome with
      | error error =>
        rw [hargs h]
        rfl
      | ok values =>
        simp only at h ⊢
        rw [hargs h.left]
        simp only [Environment.call_reimplemented h.right, Evaluation.reimplemented, Array.map_append]

/-- Runs and log lines of an evaluation in order, and how little it takes from the implementations. -/
theorem Expr.evaluate_invocations (env : Environment) (limit : Nat) (e : Expr) : ∃ invocations : List Invocation,
    (invocations.map Invocation.place).Nodup ∧ (∀ v ∈ invocations, v.IsLegal env e) ∧
    (e.evaluateWithin env limit).events.toList = invocations.flatMap Invocation.events ∧
    (∀ earlier v later m, invocations = earlier ++ v :: later → v.result = .error m →
      later = [] ∧ (e.evaluateWithin env limit).outcome = .error (.raised m)) ∧
    ∀ g : Builtin → List Binary64 → Except MathError Binary64,
      (∀ v ∈ invocations, g v.builtin v.arguments = v.result) →
      e.evaluateWithin (env.reimplemented g) limit = (e.evaluateWithin env limit).reimplemented g := by
  obtain ⟨vs, hnodup, hlegal, hevents, hreturn⟩ := accounts_evaluateWithin env limit e
  refine ⟨vs, hnodup, hlegal, hevents, hreturn, fun g hg => evaluateWithin_reimplemented limit e ?_⟩
  intro b arguments hran
  rw [← Array.mem_toList_iff, hevents] at hran
  obtain ⟨v, hv, hran⟩ := List.mem_flatMap.mp hran
  have hown : b = v.builtin ∧ arguments = v.arguments := by
    unfold Invocation.events at hran
    revert hran
    cases v.result <;> simp +contextual
  obtain ⟨rfl, rfl⟩ := hown
  exact hg v hv

end
end Calculator
