import Calculator.Proofs.Grammar.Derivation

/-!
# Replacing a name in a tree

`occurrences` counts the places of a name in a tree and `replace` puts another tree there. The names of called
functions are no such places.
-/

namespace Calculator.Expr

mutual

@[simp] def occurrences (x : String) : Expr → Nat
  | number _ => 0
  | name n => if n = x then 1 else 0
  | signed _ e => e.occurrences x
  | binary _ l r => l.occurrences x + r.occurrences x
  | group e => e.occurrences x
  | call _ args => allOccurrences x args
  | foreign _ => 0

@[simp] def allOccurrences (x : String) : List Expr → Nat
  | [] => 0
  | e :: es => e.occurrences x + allOccurrences x es

end

mutual

@[simp] def replace (t : Expr) (x : String) (u : Expr) : Expr :=
  match t with
  | number v => number v
  | name n => if n = x then u else name n
  | signed s e => signed s (e.replace x u)
  | binary op l r => binary op (l.replace x u) (r.replace x u)
  | group e => group (e.replace x u)
  | call f args => call f (replaceAll args x u)
  | foreign kind => foreign kind

@[simp] def replaceAll (ts : List Expr) (x : String) (u : Expr) : List Expr :=
  match ts with
  | [] => []
  | t :: ts => t.replace x u :: replaceAll ts x u

end

/-! ## Trees without the name -/

section
variable {x : String} (u : Expr)

mutual

theorem replace_eq_self : ∀ {t : Expr}, t.occurrences x = 0 → t.replace x u = t
  | number _, _ => by rw [replace]
  | name n, h => by
    rw [occurrences] at h
    split at h
    · cases h
    · rename_i hn
      rw [replace, if_neg hn]
  | signed s e, h => by
    rw [occurrences] at h
    rw [replace, replace_eq_self h]
  | binary op l r, h => by
    rw [occurrences, Nat.add_eq_zero_iff] at h
    rw [replace, replace_eq_self h.1, replace_eq_self h.2]
  | group e, h => by
    rw [occurrences] at h
    rw [replace, replace_eq_self h]
  | call f args, h => by
    rw [occurrences] at h
    rw [replace, replaceAll_eq_self h]
  | foreign _, _ => by rw [replace]

theorem replaceAll_eq_self : ∀ {ts : List Expr}, allOccurrences x ts = 0 → replaceAll ts x u = ts
  | [], _ => by rw [replaceAll]
  | t :: ts, h => by
    rw [allOccurrences, Nat.add_eq_zero_iff] at h
    rw [replaceAll, replace_eq_self h.1, replaceAll_eq_self h.2]

end

end

/-! ## Chains -/

open Grammar (joinAll)

@[simp] theorem occurrences_joinAll (x : String) (links : List (Operator × Expr)) : ∀ left : Expr,
    (joinAll left links).occurrences x = left.occurrences x + allOccurrences x (links.map (·.2)) := by
  induction links with
  | nil => intro left; simp [joinAll]
  | cons link links ih =>
    intro left
    have := ih (binary link.1 left link.2)
    rw [occurrences] at this
    simp only [List.map_cons, allOccurrences, ← Nat.add_assoc]
    exact this

def replaceLinks (x : String) (u : Expr) (links : List (Operator × Expr)) : List (Operator × Expr) :=
  links.map fun link => (link.1, link.2.replace x u)

theorem replaceLinks_eq_self {x : String} (u : Expr) : ∀ {links : List (Operator × Expr)},
    allOccurrences x (links.map (·.2)) = 0 → replaceLinks x u links = links
  | [], _ => rfl
  | link :: links, h => by
    rw [List.map_cons, allOccurrences, Nat.add_eq_zero_iff] at h
    have hlinks := replaceLinks_eq_self u h.2
    rw [replaceLinks] at hlinks ⊢
    rw [List.map_cons, replace_eq_self u h.1, hlinks]

theorem replace_joinAll (x : String) (u : Expr) (links : List (Operator × Expr)) : ∀ left : Expr,
    (joinAll left links).replace x u = joinAll (left.replace x u) (replaceLinks x u links) := by
  induction links with
  | nil => intro left; rfl
  | cons link links ih =>
    intro left
    have := ih (binary link.1 left link.2)
    rw [replace] at this
    exact this

end Calculator.Expr
