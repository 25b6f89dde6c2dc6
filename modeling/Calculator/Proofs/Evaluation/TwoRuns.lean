import Calculator.Evaluation.Basic
import Calculator.Proofs.Number.Total
import Mathlib.Data.List.Forall2

/-!
# Two runs of evaluation

Trees of one shape whose numbers are related, in environments that keep them related, are evaluated alike:
`evaluateWithin_alike`. Nothing is assumed of the relation, so that with equality two runs give the same, and with the
relation that holds always `outcome_blind` says that all but `%` fail in the same way whatever the numbers, as long as
no function is refused.
-/

namespace Calculator

section
variable (V : Binary64 → Binary64 → Prop)

/-- Both succeed, with values related by `R`, or both fail with the same error. -/
inductive Matches {ε α : Type} (R : α → α → Prop) : Except ε α → Except ε α → Prop
  | ok {x y : α} (values : R x y) : Matches R (.ok x) (.ok y)
  | error (e : ε) : Matches R (.error e) (.error e)

structure CallRecord.Alike (r s : CallRecord) : Prop where
  name : r.name = s.name
  arguments : List.Forall₂ V r.arguments s.arguments
  result : V r.result s.result

inductive Event.Alike : Event → Event → Prop
  | ran {b : Builtin} {xs ys : List Binary64} (arguments : List.Forall₂ V xs ys) : Alike (.ran b xs) (.ran b ys)
  | logged {r s : CallRecord} (records : r.Alike V s) : Alike (.logged r) (.logged s)

def Event.AllAlike (es fs : Array Event) : Prop := List.Forall₂ (Event.Alike V) es.toList fs.toList

structure Evaluation.Alike (x y : Evaluation) : Prop where
  outcome : Matches V x.outcome y.outcome
  events : Event.AllAlike V x.events y.events

def Sign.Keeps (s : Sign) : Prop := ∀ x y, V x y → Matches V (s.apply x) (s.apply y)

def Operator.Keeps (op : Operator) : Prop :=
  ∀ x x' y y', V x x' → V y y' → Matches V (op.apply x y) (op.apply x' y')

/-- In calls with as many arguments as the function takes. -/
def Builtin.Keeps (b : Builtin) : Prop :=
  ∀ xs ys, List.Forall₂ V xs ys → (ys.length : Int) = b.arity → Matches V (b.apply xs) (b.apply ys)

structure Environment.Alike (env env' : Environment) : Prop where
  constants : ∀ key, Option.Rel V (env.constants.find? key) (env'.constants.find? key)
  functions : ∀ key, env.functions.find? key = env'.functions.find? key
  keeps : ∀ key b, env'.functions.find? key = some b → b.Keeps V

namespace Expr

mutual

/-- Trees of one shape, their names agreeing but for letter case and their signs and operators keeping `V`. -/
inductive Alike : Expr → Expr → Prop
  | number {x y : Binary64} (values : V x y) : Alike (.number x) (.number y)
  | name {n m : String} (keys : Text.lower n = Text.lower m) : Alike (.name n) (.name m)
  | signed {s : Sign} {e e' : Expr} (keeps : s.Keeps V) (operand : Alike e e') : Alike (.signed s e) (.signed s e')
  | binary {op : Operator} {l l' r r' : Expr} (keeps : op.Keeps V) (left : Alike l l') (right : Alike r r') :
      Alike (.binary op l r) (.binary op l' r')
  | group {e e' : Expr} (inner : Alike e e') : Alike (.group e) (.group e')
  | call {f g : String} {args args' : List Expr} (keys : Text.lower f = Text.lower g)
      (arguments : AllAlike args args') : Alike (.call f args) (.call g args')
  | foreign (kind : String) : Alike (.foreign kind) (.foreign kind)

inductive AllAlike : List Expr → List Expr → Prop
  | nil : AllAlike [] []
  | cons {e e' : Expr} {es es' : List Expr} (first : Alike e e') (rest : AllAlike es es') :
      AllAlike (e :: es) (e' :: es')

end

def LinksAlike : List (Operator × Expr) → List (Operator × Expr) → Prop :=
  List.Forall₂ fun a b => a.1 = b.1 ∧ a.1.Keeps V ∧ a.2.Alike V b.2

end Expr
end

variable {V : Binary64 → Binary64 → Prop}

/-! ## The parts of an evaluation -/

theorem Event.AllAlike.append {es fs es' fs' : Array Event} (h : AllAlike V es fs) (h' : AllAlike V es' fs') :
    AllAlike V (es ++ es') (fs ++ fs') := by
  unfold AllAlike at *
  rw [Array.toList_append, Array.toList_append]
  exact List.rel_append h h'

theorem Matches.bind {ε α β : Type} {R : α → α → Prop} {S : β → β → Prop} {x y : Except ε α}
    {f g : α → Except ε β} (h : Matches R x y) (hf : ∀ a b, R a b → Matches S (f a) (g b)) :
    Matches S (x.bind f) (y.bind g) := by
  cases h with
  | ok values => exact hf _ _ values
  | error e => exact .error e

theorem Event.AllAlike.calls {x y : Evaluation} (h : AllAlike V x.events y.events) :
    List.Forall₂ (CallRecord.Alike V) x.calls.toList y.calls.toList := by
  rw [Evaluation.calls, Evaluation.calls, Array.toList_filterMap, Array.toList_filterMap]
  unfold AllAlike at h
  revert h
  generalize x.events.toList = es
  generalize y.events.toList = fs
  intro h
  induction h with
  | nil => exact .nil
  | cons first _ ih =>
    cases first with
    | ran arguments => exact ih
    | logged records => exact .cons records ih

theorem Evaluation.alike_failure (e : EvalError) : Evaluation.Alike V (.failure e) (.failure e) := ⟨.error e, .nil⟩

namespace Environment.Alike
variable {env env' : Environment} (h : Environment.Alike V env env') {n m : String} (hk : Text.lower n = Text.lower m)
include h hk

theorem constant : Matches V (env.constant n) (env'.constant m) := by
  have hfind := h.constants (Text.lower m)
  unfold Environment.constant
  simp only [hk]
  revert hfind
  cases env.constants.find? (Text.lower m) <;> cases env'.constants.find? (Text.lower m) <;> intro hfind <;> cases hfind
  · exact .error _
  · rename_i values
    exact .ok values

theorem call {xs ys : List Binary64} (hv : List.Forall₂ V xs ys) :
    Evaluation.Alike V (env.call n xs) (env'.call m ys) := by
  have hfind := h.functions (Text.lower m)
  unfold Environment.call
  simp only [hk, hv.length_eq, hfind]
  cases hb : env'.functions.find? (Text.lower m) with
  | none => exact Evaluation.alike_failure _
  | some b =>
    by_cases hc : (ys.length : Int) = b.arity
    · simp only [hc, ne_eq, not_true, if_false]
      have hkeeps := h.keeps _ b hb xs ys hv hc
      unfold Builtin.run
      revert hkeeps
      generalize b.apply xs = x
      generalize b.apply ys = y
      intro hkeeps
      cases hkeeps with
      | ok values => exact ⟨.ok values, .cons (.ran hv) (.cons (.logged ⟨rfl, hv, values⟩) .nil)⟩
      | error e => exact ⟨.error _, .cons (.ran hv) .nil⟩
    · simp only [ne_eq, hc, not_false_eq_true, if_true]
      exact Evaluation.alike_failure _

end Environment.Alike

/-! ## Chains and arguments -/

namespace Evaluation
variable {x x' y y' : Evaluation}

theorem Alike.escapes (h : Alike V x y) : x.escapes = y.escapes := by
  have hout := h.outcome
  unfold Evaluation.escapes
  revert hout
  cases x.outcome <;> cases y.outcome <;> intro hout <;> cases hout <;> rfl

theorem Alike.combine {op : Operator} (hop : op.Keeps V) (hx : Alike V x x') (hy : Alike V y y') :
    Alike V (Evaluation.combine op x y) (Evaluation.combine op x' y') := by
  obtain ⟨xo, xc⟩ := x
  obtain ⟨yo, yc⟩ := y
  obtain ⟨xo', xc'⟩ := x'
  obtain ⟨yo', yc'⟩ := y'
  obtain ⟨hxo, hxc⟩ := hx
  obtain ⟨hyo, hyc⟩ := hy
  refine ⟨?_, hxc.append hyc⟩
  cases hyo with
  | ok hy =>
    cases hxo with
    | ok hx => exact hop _ _ _ _ hx hy
    | error e => exact .error e
  | error e =>
    cases hxo with
    | ok hx => exact .error e
    | error e' => exact .error _

variable {evaluate evaluate' : Expr → Evaluation}
  (hev : ∀ {e e' : Expr}, e.Alike V e' → Alike V (evaluate e) (evaluate' e'))
include hev

theorem chain_alike {links links' : List (Operator × Expr)} (hl : Expr.LinksAlike V links links') :
    ∀ {left left' : Evaluation}, Alike V left left' →
      Alike V (chain evaluate left links) (chain evaluate' left' links') := by
  induction hl with
  | nil => exact fun h => h
  | @cons link link' rest rest' hlink _ ih =>
    intro left left' h
    obtain ⟨op, right⟩ := link
    obtain ⟨op', right'⟩ := link'
    obtain ⟨rfl, hop, hright⟩ := hlink
    rw [chain, chain, h.escapes]
    split
    · exact h
    · exact ih (h.combine hop (hev hright))

theorem arguments_alike : ∀ {es es' : List Expr}, Expr.AllAlike V es es' → ∀ {xs ys : List Binary64}
    {before before' : Array Event}, List.Forall₂ V xs ys → Event.AllAlike V before before' →
    Matches (List.Forall₂ V) (arguments evaluate xs before es).1 (arguments evaluate' ys before' es').1 ∧
      Event.AllAlike V (arguments evaluate xs before es).2 (arguments evaluate' ys before' es').2
  | [], [], .nil, _, _, _, _, hv, hc => ⟨.ok (List.rel_reverse hv), hc⟩
  | e :: _, e' :: _, .cons first rest, _, _, _, _, hv, hc => by
    obtain ⟨hout, hevents⟩ := hev first
    rw [arguments, arguments]
    revert hout hevents
    obtain ⟨outcome, events⟩ := evaluate e
    obtain ⟨outcome', events'⟩ := evaluate' e'
    intro hout hevents
    cases hout with
    | ok hx => exact arguments_alike rest (.cons hx hv) (hc.append hevents)
    | error error => exact ⟨.error error, hc.append hevents⟩

end Evaluation

/-! ## Trees -/

namespace Expr

theorem spine_alike : ∀ {e e' : Expr}, e.Alike V e' → ∀ {links links' : List (Operator × Expr)},
    LinksAlike V links links' →
      (e.spine links).1.Alike V (e'.spine links').1 ∧ LinksAlike V (e.spine links).2 (e'.spine links').2
  | .binary .., _, .binary keeps left right, _, _, hl => spine_alike left (.cons ⟨rfl, keeps, right⟩ hl)
  | .number _, _, .number values, _, _, hl => ⟨.number values, hl⟩
  | .name _, _, .name keys, _, _, hl => ⟨.name keys, hl⟩
  | .signed .., _, .signed keeps operand, _, _, hl => ⟨.signed keeps operand, hl⟩
  | .group _, _, .group inner, _, _, hl => ⟨.group inner, hl⟩
  | .call .., _, .call keys arguments, _, _, hl => ⟨.call keys arguments, hl⟩
  | .foreign _, _, .foreign kind, _, _, hl => ⟨.foreign kind, hl⟩

theorem evaluateWithin_alike {env env' : Environment} (henv : Environment.Alike V env env') : ∀ (limit : Nat)
    {e e' : Expr}, e.Alike V e' → Evaluation.Alike V (e.evaluateWithin env limit) (e'.evaluateWithin env' limit)
  | 0, _, _, _ => Evaluation.alike_failure _
  | limit + 1, _, _, h => by
    have hev : ∀ {e e' : Expr}, e.Alike V e' → _ := evaluateWithin_alike henv limit
    cases h with
    | number values => exact ⟨.ok values, .nil⟩
    | name keys => exact ⟨henv.constant keys, .nil⟩
    | foreign kind => exact Evaluation.alike_failure _
    | group inner => exact hev inner
    | signed keeps operand =>
      obtain ⟨hout, hevents⟩ := hev operand
      exact ⟨hout.bind keeps, hevents⟩
    | @binary op l l' r r' keeps left right =>
      have hlink : LinksAlike V [(op, r)] [(op, r')] := .cons ⟨rfl, keeps, right⟩ .nil
      obtain ⟨hleftmost, hlinks⟩ := spine_alike left hlink
      exact Evaluation.chain_alike hev hlinks (hev hleftmost)
    | @call f g args args' keys arguments =>
      have hnone : Event.AllAlike V #[] #[] := .nil
      obtain ⟨hout, hevents⟩ := Evaluation.arguments_alike hev arguments .nil hnone
      rw [evaluateWithin, evaluateWithin]
      revert hout hevents
      obtain ⟨outcome, events⟩ := Evaluation.arguments (evaluateWithin env limit) [] #[] args
      obtain ⟨outcome', events'⟩ := Evaluation.arguments (evaluateWithin env' limit) [] #[] args'
      intro hout hevents
      cases hout with
      | ok hvalues =>
        have hcall := henv.call keys hvalues
        exact ⟨hcall.outcome, hevents.append hcall.events⟩
      | error error => exact ⟨.error error, hevents⟩

end Expr

/-! ## Equal numbers -/

theorem Matches.refl {ε α : Type} (x : Except ε α) : Matches Eq x x := by
  cases x with
  | ok a => exact .ok rfl
  | error e => exact .error e

theorem Sign.keeps_eq (s : Sign) : s.Keeps Eq := by
  rintro x _ rfl
  exact .refl _

theorem Operator.keeps_eq (op : Operator) : op.Keeps Eq := by
  rintro x _ y _ rfl rfl
  exact .refl _

theorem CallRecord.eq_of_alike {r s : CallRecord} (h : CallRecord.Alike Eq r s) : r = s := by
  obtain ⟨name, arguments, result⟩ := r
  obtain ⟨hname, harguments, hresult⟩ := h
  rw [List.forall₂_eq_eq_eq] at harguments
  simp only at hname harguments hresult
  rw [hname, harguments, hresult]

theorem Event.eq_of_alike {e f : Event} (h : e.Alike Eq f) : e = f := by
  cases h with
  | ran arguments =>
    rw [List.forall₂_eq_eq_eq] at arguments
    rw [arguments]
  | logged records => rw [CallRecord.eq_of_alike records]

theorem Evaluation.eq_of_alike {x y : Evaluation} (h : Evaluation.Alike Eq x y) : x = y := by
  obtain ⟨outcome, events⟩ := x
  obtain ⟨outcome', events'⟩ := y
  obtain ⟨hout, hevents⟩ := h
  have heq : List.Forall₂ Eq events.toList events'.toList := hevents.imp fun _ _ => Event.eq_of_alike
  rw [List.forall₂_eq_eq_eq] at heq
  rw [Array.toList_inj.mp heq]
  cases hout with
  | ok values => rw [values]
  | error e => rfl

theorem Builtin.keeps_eq (b : Builtin) : b.Keeps Eq := by
  intro xs ys h _
  rw [List.forall₂_eq_eq_eq] at h
  rw [h]
  exact .refl _

theorem Environment.alike_of_find? {functions functions' : FunctionTable} {constants : ConstantTable}
    (h : ∀ key, functions.find? key = functions'.find? key) :
    Environment.Alike Eq ⟨functions, constants⟩ ⟨functions', constants⟩ where
  constants key := by
    dsimp only
    cases constants.find? key with
    | none => exact .none
    | some x => exact .some rfl
  functions := h
  keeps _ b _ := b.keeps_eq

theorem Environment.alike_refl (env : Environment) : Environment.Alike Eq env env := alike_of_find? fun _ => rfl

/-! ## Numbers of any value -/

def ConstantTable.keys (t : ConstantTable) : List String := t.rows.map (·.1)

theorem ConstantTable.isSome_find?_iff {t : ConstantTable} {key : String} : (t.find? key).isSome ↔ key ∈ t.keys := by
  unfold ConstantTable.find? ConstantTable.keys
  simp

theorem Builtin.keeps_any {b : Builtin} (h : b.IsTotal) : b.Keeps fun _ _ => True := by
  intro xs ys hxs hys
  obtain ⟨x, hx⟩ := h xs (hxs.length_eq ▸ hys)
  obtain ⟨y, hy⟩ := h ys hys
  rw [hx, hy]
  exact .ok trivial

theorem Environment.alike_of_keys {functions : FunctionTable} (hf : functions.IsTotal) {c c' : ConstantTable}
    (hk : ∀ key, key ∈ c.keys ↔ key ∈ c'.keys) :
    Environment.Alike (fun _ _ => True) ⟨functions, c⟩ ⟨functions, c'⟩ where
  constants key := by
    have hsome := hk key
    rw [← ConstantTable.isSome_find?_iff, ← ConstantTable.isSome_find?_iff] at hsome
    revert hsome
    cases c.find? key <;> cases c'.find? key <;> intro hsome
    · exact .none
    · simp at hsome
    · simp at hsome
    · exact .some trivial
  functions _ := rfl
  keeps _ b hb := b.keeps_any (hf b (List.mem_of_find?_eq_some hb))

theorem Sign.keeps_any (s : Sign) : s.Keeps fun _ _ => True := by
  intro x y _
  cases s with
  | plus => exact .ok trivial
  | minus => exact .ok trivial
  | other symbol => exact .error _

/-- Only a remainder looks at its operands before it has a value. -/
theorem Operator.keeps_any {op : Operator} (h : op ≠ .mod) : op.Keeps fun _ _ => True := by
  intro x x' y y' _ _
  cases op with
  | mod => exact absurd rfl h
  | div =>
    obtain ⟨z, hz⟩ := x.div_total y
    obtain ⟨z', hz'⟩ := x'.div_total y'
    rw [apply, apply, hz, hz']
    exact .ok trivial
  | pow =>
    obtain ⟨z, hz⟩ := x.pow_total y
    obtain ⟨z', hz'⟩ := x'.pow_total y'
    rw [apply, apply, hz, hz']
    exact .ok trivial
  | other symbol => exact .error _
  | _ => exact .ok trivial

namespace Expr

mutual

def blank : Expr → Expr
  | number _ => number .nan
  | name n => name n
  | signed s e => signed s e.blank
  | binary op l r => binary op l.blank r.blank
  | group e => group e.blank
  | call f args => call f (allBlank args)
  | foreign kind => foreign kind

def allBlank : List Expr → List Expr
  | [] => []
  | e :: es => e.blank :: allBlank es

end

mutual

def operators : Expr → List Operator
  | number _ => []
  | name _ => []
  | signed _ e => e.operators
  | binary op l r => l.operators ++ op :: r.operators
  | group e => e.operators
  | call _ args => allOperators args
  | foreign _ => []

def allOperators : List Expr → List Operator
  | [] => []
  | e :: es => e.operators ++ allOperators es

end

mutual

theorem alike_of_blank : ∀ {e e' : Expr}, e.blank = e'.blank → .mod ∉ e.operators → e.Alike (fun _ _ => True) e'
  | .number x, e', h, _ => by
    cases e' with
    | number y => exact .number trivial
    | _ => cases h
  | .name n, e', h, _ => by
    cases e' with
    | name m =>
      cases h
      exact .name rfl
    | _ => cases h
  | .signed s e, e', h, hm => by
    cases e' with
    | signed s' e' =>
      injection h with hs he
      subst hs
      exact .signed s.keeps_any (alike_of_blank he hm)
    | _ => cases h
  | .binary op l r, e', h, hm => by
    cases e' with
    | binary op' l' r' =>
      injection h with hop hl hr
      subst hop
      simp only [operators, List.mem_append, List.mem_cons, not_or] at hm
      obtain ⟨hml, hmop, hmr⟩ := hm
      exact .binary (Operator.keeps_any (Ne.symm hmop)) (alike_of_blank hl hml) (alike_of_blank hr hmr)
    | _ => cases h
  | .group e, e', h, hm => by
    cases e' with
    | group e' =>
      injection h with he
      exact .group (alike_of_blank he hm)
    | _ => cases h
  | .call f args, e', h, hm => by
    cases e' with
    | call g args' =>
      injection h with hf hargs
      subst hf
      exact .call rfl (allAlike_of_blank hargs hm)
    | _ => cases h
  | .foreign kind, e', h, _ => by
    cases e' with
    | foreign kind' =>
      cases h
      exact .foreign kind
    | _ => cases h

theorem allAlike_of_blank : ∀ {es es' : List Expr}, allBlank es = allBlank es' → .mod ∉ allOperators es →
    AllAlike (fun _ _ => True) es es'
  | [], es', h, _ => by
    cases es' with
    | nil => exact .nil
    | cons e' es' => cases h
  | e :: es, es', h, hm => by
    cases es' with
    | nil => cases h
    | cons e' es' =>
      injection h with he hes
      simp only [allOperators, List.mem_append, not_or] at hm
      exact .cons (alike_of_blank he hm.1) (allAlike_of_blank hes hm.2)

end

theorem outcome_blind {t t' : Expr} (ht : t.blank = t'.blank) (hm : .mod ∉ t.operators) {functions : FunctionTable}
    (hf : functions.IsTotal) {c c' : ConstantTable} (hk : ∀ key, key ∈ c.keys ↔ key ∈ c'.keys) (limit : Nat) :
    ((∃ x y, (t.evaluateWithin ⟨functions, c⟩ limit).outcome = .ok x ∧
          (t'.evaluateWithin ⟨functions, c'⟩ limit).outcome = .ok y) ∨
        ∃ e, (t.evaluateWithin ⟨functions, c⟩ limit).outcome = .error e ∧
          (t'.evaluateWithin ⟨functions, c'⟩ limit).outcome = .error e) ∧
      (t.evaluateWithin ⟨functions, c⟩ limit).calls.toList.map (·.name) =
        (t'.evaluateWithin ⟨functions, c'⟩ limit).calls.toList.map (·.name) := by
  obtain ⟨hout, hevents⟩ := evaluateWithin_alike (Environment.alike_of_keys hf hk) limit (alike_of_blank ht hm)
  constructor
  · revert hout
    generalize (t.evaluateWithin ⟨functions, c⟩ limit).outcome = x
    generalize (t'.evaluateWithin ⟨functions, c'⟩ limit).outcome = y
    intro hout
    cases hout with
    | ok => exact .inl ⟨_, _, rfl, rfl⟩
    | error e => exact .inr ⟨e, rfl, rfl⟩
  · have hnames : List.Forall₂ (fun r s : CallRecord => r.name = s.name) _ _ := hevents.calls.imp fun _ _ h => h.name
    rwa [← List.forall₂_eq_eq_eq, List.forall₂_map_left_iff, List.forall₂_map_right_iff]

theorem outcome_blind_wrong_count : ∃ (functions : FunctionTable) (c c' : ConstantTable) (t t' : Expr),
    t = binary .div (call "F" [name "X"]) (call "f" [number .zero, number .nan]) ∧
      t' = binary .div (call "F" [name "X"]) (call "f" [number (.infinite true), number .zero]) ∧
      t.blank = t'.blank ∧ .mod ∉ t.operators ∧ functions.IsTotal ∧ (∀ key, key ∈ c.keys ↔ key ∈ c'.keys) ∧
      (t.evaluateWithin ⟨functions, c⟩ 10).outcome = .error (.arityMismatch "f" 1 2) ∧
      (t'.evaluateWithin ⟨functions, c'⟩ 10).outcome = .error (.arityMismatch "f" 1 2) ∧
      (t'.evaluateWithin ⟨functions, c'⟩ 10).calls.toList.map (·.name) = ["f"] := by
  let functions : FunctionTable := ⟨[⟨"f", 1, fun _ => .ok .nan⟩], by decide +kernel⟩
  let c : ConstantTable := ⟨[("x", .nan)]⟩
  let c' : ConstantTable := ⟨[("x", .zero)]⟩
  let t := binary .div (call "F" [name "X"]) (call "f" [number .zero, number .nan])
  let t' := binary .div (call "F" [name "X"]) (call "f" [number (.infinite true), number .zero])
  have ht : t.blank = t'.blank := rfl
  have hm : .mod ∉ t.operators := by decide
  have hf : functions.IsTotal := List.forall_mem_singleton.mpr fun _ _ => ⟨_, rfl⟩
  have hk : ∀ key, key ∈ c.keys ↔ key ∈ c'.keys := fun _ => .rfl
  obtain ⟨hout, hcalls⟩ := outcome_blind ht hm hf hk 10
  have herror : (t.evaluateWithin ⟨functions, c⟩ 10).outcome = .error (.arityMismatch "f" 1 2) := by rfl
  have hnames : (t.evaluateWithin ⟨functions, c⟩ 10).calls.toList.map (·.name) = ["f"] := by decide +kernel
  refine ⟨functions, c, c', t, t', rfl, rfl, ht, hm, hf, hk, herror, ?_, hcalls.symm.trans hnames⟩
  rcases hout with ⟨x, y, hx, -⟩ | ⟨e, he, he'⟩
  · cases hx.symm.trans herror
  · rw [he', ← he, herror]

/-- Remainders by zero and by one, which only the value of a number tells apart. -/
example : (binary .mod (number .zero) (number .zero)).blank = (binary .mod (number .zero) (number (.ofInt 1))).blank ∧
    Operator.apply .mod .zero .zero = .error .integerDivisionByZero ∧
    Operator.apply .mod .zero (.ofInt 1) = .ok .zero :=
  ⟨by simp only [blank], by decide +kernel, by decide +kernel⟩

end Expr
end Calculator
