import Calculator.Proofs.Evaluation.Rules
import Calculator.Proofs.Evaluation.TwoRuns
import Mathlib.Data.List.Nodup

/-!
# The names of functions

`found_by_name`: a list of functions makes a table exactly if no two of them have one name, letter case aside. A call
then finds the function of its name wherever that stands in the list, and otherwise the first function to be refused
is named.
-/

namespace Calculator

/-! ## Tables from lists -/

namespace FunctionTable

/-- The first function of the list whose name is that of one before it. -/
def FirstRepeated (bs : List Builtin) (b : Builtin) : Prop :=
  ∃ before behind, bs = before ++ b :: behind ∧ (before.map fun c => Text.lower c.name).Nodup ∧
    ∃ c ∈ before, Text.lower c.name = Text.lower b.name

theorem insert_known {t : FunctionTable} {b : Builtin} (h : b.key ∈ t.keys) : t.insert b = .error ⟨b.key⟩ :=
  dif_pos h

theorem insert_new {t : FunctionTable} {b : Builtin} (h : b.key ∉ t.keys) :
    ∃ t', t.insert b = .ok t' ∧ t'.builtins = t.builtins ++ [b] :=
  ⟨_, dif_neg h, rfl⟩

/-- All functions of a list go into a table, in order, or those before one that the table cannot take. -/
theorem foldlM_insert : ∀ (bs : List Builtin) (t : FunctionTable),
    (∃ t', bs.foldlM insert t = .ok t' ∧ t'.builtins = t.builtins ++ bs) ∨
      ∃ before b behind, bs = before ++ b :: behind ∧ ((t.builtins ++ before).map Builtin.key).Nodup ∧
        b.key ∈ (t.builtins ++ before).map Builtin.key ∧ bs.foldlM insert t = .error ⟨b.key⟩
  | [], t => .inl ⟨t, rfl, (List.append_nil _).symm⟩
  | b :: bs, t => by
    by_cases h : b.key ∈ t.keys
    · right
      refine ⟨[], b, bs, rfl, ?_, ?_, ?_⟩
      · rw [List.append_nil]
        exact t.keys_nodup
      · rwa [List.append_nil]
      · rw [List.foldlM_cons, insert_known h]
        rfl
    · obtain ⟨t₁, hinsert, hbuiltins⟩ := insert_new h
      have hfold : (b :: bs).foldlM insert t = bs.foldlM insert t₁ := by
        rw [List.foldlM_cons, hinsert]
        rfl
      rw [hfold]
      rcases foldlM_insert bs t₁ with ⟨t', ht', hall⟩ | ⟨before, c, behind, hsplit, hnodup, hmem, herror⟩
      · exact .inl ⟨t', ht', by rw [hall, hbuiltins, List.append_assoc, List.singleton_append]⟩
      · rw [hbuiltins, List.append_assoc, List.singleton_append] at hnodup hmem
        exact .inr ⟨b :: before, c, behind, by rw [hsplit, List.cons_append], hnodup, hmem, herror⟩

theorem FirstRepeated.not_nodup {bs : List Builtin} {b : Builtin} (h : FirstRepeated bs b) :
    ¬(bs.map fun c => Text.lower c.name).Nodup := by
  obtain ⟨before, behind, rfl, -, c, hc, hname⟩ := h
  intro hnodup
  rw [List.map_append, List.map_cons, List.nodup_append] at hnodup
  exact hnodup.2.2 _ (List.mem_map_of_mem hc) _ List.mem_cons_self hname

theorem ofList_cases (bs : List Builtin) :
    ((bs.map fun b => Text.lower b.name).Nodup ∧ ∃ t, ofList bs = .ok t ∧ t.builtins = bs) ∨
      ∃ b, FirstRepeated bs b ∧ ofList bs = .error ⟨Text.lower b.name⟩ := by
  rcases foldlM_insert bs empty with ⟨t, ht, hall⟩ | ⟨before, b, behind, hsplit, hnodup, hmem, herror⟩
  · have hbuiltins : t.builtins = bs := hall
    exact .inl ⟨hbuiltins ▸ t.keys_nodup, t, ht, hbuiltins⟩
  · obtain ⟨c, hc, hkey⟩ := List.mem_map.mp hmem
    exact .inr ⟨b, ⟨before, behind, hsplit, hnodup, c, hc, hkey⟩, herror⟩

/-! ## Looking functions up -/

theorem key_of_find? {t : FunctionTable} {key : String} {b : Builtin} (h : t.find? key = some b) : b.key = key := by
  have hkey := List.find?_some h
  exact eq_of_beq hkey

theorem find?_eq_some_iff {t : FunctionTable} {key : String} {b : Builtin} :
    t.find? key = some b ↔ b ∈ t.builtins ∧ key = b.key := by
  constructor
  · exact fun h => ⟨List.mem_of_find?_eq_some h, (key_of_find? h).symm⟩
  · rintro ⟨hb, rfl⟩
    cases hfind : t.find? b.key with
    | none => exact absurd (beq_self_eq_true b.key) (List.find?_eq_none.mp hfind b hb)
    | some c => rw [List.inj_on_of_nodup_map t.keys_nodup (List.mem_of_find?_eq_some hfind) hb (key_of_find? hfind)]

theorem find?_eq_none_iff {t : FunctionTable} {key : String} : t.find? key = none ↔ ∀ b ∈ t.builtins, key ≠ b.key := by
  rw [find?, List.find?_eq_none]
  exact forall₂_congr fun b _ => by rw [beq_iff_eq, eq_comm]

theorem find?_perm {t t' : FunctionTable} (h : t.builtins.Perm t'.builtins) (key : String) :
    t.find? key = t'.find? key := by
  apply Option.ext
  intro b
  rw [find?_eq_some_iff, find?_eq_some_iff, h.mem_iff]

end FunctionTable

/-! ## Calls -/

namespace Builtin

/-- What a call of this function comes to. -/
def called (b : Builtin) (key : String) (values : List Binary64) : Evaluation :=
  if (values.length : Int) = b.arity then
    match b.apply values with
    | .ok x => ⟨.ok x, #[.ran b values, .logged ⟨key, values, x⟩]⟩
    | .error m => ⟨.error (.raised m), #[.ran b values]⟩
  else .failure (.arityMismatch key b.arity values.length)

end Builtin

theorem Environment.call_found {env : Environment} {name : String} {b : Builtin}
    (h : env.functions.find? (Text.lower name) = some b) (values : List Binary64) :
    env.call name values = b.called (Text.lower name) values := by
  unfold Builtin.called
  by_cases hc : (values.length : Int) = b.arity
  · rw [if_pos hc]
    cases hx : b.apply values with
    | ok x => rw [call_returns h hc hx]
    | error m => rw [call_raises h hc hx]
  · rw [if_neg hc, call_wrongCount h hc]

namespace Expr

mutual

theorem alike_self : ∀ e : Expr, e.Alike Eq e
  | number _ => .number rfl
  | name _ => .name rfl
  | signed s e => .signed s.keeps_eq (alike_self e)
  | binary op l r => .binary op.keeps_eq (alike_self l) (alike_self r)
  | group e => .group (alike_self e)
  | call _ args => .call rfl (allAlike_self args)
  | foreign kind => .foreign kind

theorem allAlike_self : ∀ es : List Expr, AllAlike Eq es es
  | [] => .nil
  | e :: es => .cons (alike_self e) (allAlike_self es)

end

/-- An evaluation sees no more of a table than what is found in it. -/
theorem evaluateWithin_of_find? {t t' : FunctionTable} (h : ∀ key, t.find? key = t'.find? key)
    (constants : ConstantTable) (limit : Nat) (e : Expr) :
    e.evaluateWithin ⟨t, constants⟩ limit = e.evaluateWithin ⟨t', constants⟩ limit :=
  Evaluation.eq_of_alike (evaluateWithin_alike (Environment.alike_of_find? h) limit (alike_self e))

end Expr

namespace FunctionTable

theorem found_by_name (bs : List Builtin) :
    ((bs.map fun b => Text.lower b.name).Nodup ∧ ∃ t, ofList bs = .ok t ∧ t.builtins = bs ∧
        (∀ name b, t.find? (Text.lower name) = some b ↔ b ∈ bs ∧ Text.lower name = Text.lower b.name) ∧
        (∀ b ∈ bs, ∀ c ∈ bs, Text.lower b.name = Text.lower c.name → b = c) ∧
        (∀ constants name values,
          (∀ b ∈ bs, Text.lower name = Text.lower b.name →
            (Environment.mk t constants).call name values = b.called (Text.lower name) values) ∧
          ((∀ b ∈ bs, Text.lower name ≠ Text.lower b.name) →
            (Environment.mk t constants).call name values = .failure (.unknownFunction (Text.lower name)))) ∧
        ∀ bs', bs.Perm bs' → ∃ t', ofList bs' = .ok t' ∧ ∀ constants limit (e : Expr),
          e.evaluateWithin ⟨t', constants⟩ limit = e.evaluateWithin ⟨t, constants⟩ limit) ∨
      ¬(bs.map fun b => Text.lower b.name).Nodup ∧ ∃ b d, FirstRepeated bs b ∧ ofList bs = .error d ∧
        d.key = Text.lower b.name ∧ d.message = "duplicate builtin '" ++ Text.lower b.name ++ "'" := by
  rcases ofList_cases bs with ⟨hnodup, t, ht, rfl⟩ | ⟨b, hb, herror⟩
  · left
    refine ⟨hnodup, t, ht, rfl, fun name b => find?_eq_some_iff, List.inj_on_of_nodup_map hnodup, ?_, ?_⟩
    · intro constants name values
      refine ⟨fun b hb hname => ?_, fun hnone => ?_⟩
      · exact Environment.call_found (find?_eq_some_iff.mpr ⟨hb, hname⟩) values
      · exact Environment.call_unknown (find?_eq_none_iff.mpr hnone) values
    · intro bs' hperm
      rcases ofList_cases bs' with ⟨-, t', ht', rfl⟩ | ⟨b, hb, -⟩
      · exact ⟨t', ht', Expr.evaluateWithin_of_find? fun key => (find?_perm hperm key).symm⟩
      · exact absurd ((hperm.map _).nodup hnodup) hb.not_nodup
  · exact .inr ⟨hb.not_nodup, b, _, hb, herror, rfl, rfl⟩

theorem found_by_name_either_order : ∃ f g t t', f = (⟨"Double", 1, fun _ => .ok .nan⟩ : Builtin) ∧
    g = (⟨"half", 1, fun _ => .ok .zero⟩ : Builtin) ∧ ofList [f, g] = .ok t ∧
    Text.lower "dOUBLE" = Text.lower f.name ∧ t.find? (Text.lower "dOUBLE") = some f ∧
    [f, g].Perm [g, f] ∧ ofList [g, f] = .ok t' ∧
    (Expr.call "DOUBLE" [.number .zero]).evaluateWithin ⟨t', ⟨[]⟩⟩ 2 =
      (Expr.call "DOUBLE" [.number .zero]).evaluateWithin ⟨t, ⟨[]⟩⟩ 2 := by
  let f : Builtin := ⟨"Double", 1, fun _ => .ok .nan⟩
  let g : Builtin := ⟨"half", 1, fun _ => .ok .zero⟩
  have hperm : [f, g].Perm [g, f] := .swap g f []
  have hname : Text.lower "dOUBLE" = Text.lower f.name := by decide +kernel
  rcases found_by_name [f, g] with ⟨-, t, ht, -, hfind, -, -, hsame⟩ | ⟨hrepeated, -⟩
  · obtain ⟨t', ht', hevaluate⟩ := hsame _ hperm
    exact ⟨f, g, t, t', rfl, rfl, ht, hname, (hfind _ _).mpr ⟨List.mem_cons_self, hname⟩, hperm, ht', hevaluate _ _ _⟩
  · exact absurd (by decide +kernel) hrepeated

/-- Both names come twice, and the one that does so first is reported. -/
example (f : List Binary64 → Except MathError Binary64) :
    ofList [⟨"Double", 1, f⟩, ⟨"half", 1, f⟩, ⟨"HALF", 1, f⟩, ⟨"double", 1, f⟩] = .error ⟨"half"⟩ := by
  cbv

end FunctionTable
end Calculator
