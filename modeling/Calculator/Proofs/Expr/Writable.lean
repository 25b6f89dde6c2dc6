import Calculator.Expr.Printer
import Calculator.Proofs.Grammar.Equations
import Calculator.Proofs.Token.Lexeme

/-!
# Trees that can be written

`IsWritable` collects what `Expr.source` asks of a tree and what reading asks of its names. `source_finite`:
whatever is written has finite literals only.
-/

namespace Calculator

/-! ## Trees that can be written -/

def Sign.isKnown : Sign → Bool
  | plus => true
  | minus => true
  | other _ => false

namespace Expr

mutual

def isWellFormed : Expr → Bool
  | number _ => true
  | name n => isName n
  | signed s e => s.isKnown && e.isWellFormed
  | binary op l r => decide (op ∈ Operator.known) && l.isWellFormed && r.isWellFormed
  | group e => e.isWellFormed
  | call f args => isName f && allWellFormed args
  | foreign _ => false

def allWellFormed : List Expr → Bool
  | [] => true
  | e :: es => e.isWellFormed && allWellFormed es

end

mutual

def literals : Expr → List Binary64
  | number x => [x]
  | name _ => []
  | signed _ e => e.literals
  | binary _ l r => l.literals ++ r.literals
  | group e => e.literals
  | call _ args => allLiterals args
  | foreign _ => []

def allLiterals : List Expr → List Binary64
  | [] => []
  | e :: es => e.literals ++ allLiterals es

end

/-- A tree with known operators and signs, finite literals and names that can be read. -/
structure IsWritable (e : Expr) : Prop where
  wellFormed : e.isWellFormed = true
  finite : ∀ x ∈ e.literals, x.isFinite = true

instance (e : Expr) : Decidable e.IsWritable :=
  decidable_of_iff (e.isWellFormed = true ∧ ∀ x ∈ e.literals, x.isFinite = true)
    ⟨fun h => ⟨h.1, h.2⟩, fun h => ⟨h.1, h.2⟩⟩

/-! ## Parts of trees that can be written -/

theorem allWellFormed_eq_all : ∀ es : List Expr, allWellFormed es = es.all isWellFormed
  | [] => rfl
  | e :: es => by rw [allWellFormed, List.all_cons, allWellFormed_eq_all es]

theorem allLiterals_eq_flatMap : ∀ es : List Expr, allLiterals es = es.flatMap literals
  | [] => rfl
  | e :: es => by rw [allLiterals, List.flatMap_cons, allLiterals_eq_flatMap es]

theorem IsWritable.signed {s : Sign} {e : Expr} (h : (signed s e).IsWritable) : s.isKnown = true ∧ e.IsWritable := by
  obtain ⟨hw, hf⟩ := h
  rw [isWellFormed, Bool.and_eq_true] at hw
  exact ⟨hw.1, hw.2, hf⟩

theorem IsWritable.binary {op : Operator} {l r : Expr} (h : (binary op l r).IsWritable) :
    op ∈ Operator.known ∧ l.IsWritable ∧ r.IsWritable := by
  obtain ⟨hw, hf⟩ := h
  simp only [isWellFormed, Bool.and_eq_true, decide_eq_true_eq] at hw
  rw [literals, List.forall_mem_append] at hf
  exact ⟨hw.1.1, ⟨hw.1.2, hf.1⟩, ⟨hw.2, hf.2⟩⟩

theorem IsWritable.group {e : Expr} (h : (group e).IsWritable) : e.IsWritable := by
  obtain ⟨hw, hf⟩ := h
  rw [isWellFormed] at hw
  exact ⟨hw, hf⟩

theorem IsWritable.call {f : String} {args : List Expr} (h : (call f args).IsWritable) :
    isName f = true ∧ ∀ e ∈ args, e.IsWritable := by
  obtain ⟨hw, hf⟩ := h
  rw [isWellFormed, Bool.and_eq_true, allWellFormed_eq_all, List.all_eq_true] at hw
  rw [literals, allLiterals_eq_flatMap] at hf
  exact ⟨hw.1, fun e he => ⟨hw.2 e he, fun x hx => hf x (List.mem_flatMap.mpr ⟨e, he, hx⟩)⟩⟩

/-! ## Written trees have finite literals -/

open Grammar (bind_eq_ok)

mutual

theorem source_finite : ∀ {e : Expr} {text : String}, e.source = .ok text → ∀ x ∈ e.literals, x.isFinite = true
  | number x, text, h => by
    intro y hy
    rw [literals, List.mem_singleton] at hy
    subst hy
    cases y with
    | finite _ _ => rfl
    | _ => cases h
  | name _, _, _ => by simp [literals]
  | signed s e, text, h => by
    obtain ⟨inner, hi, -⟩ := bind_eq_ok h
    rw [literals]
    exact source_finite hi
  | binary op l r, text, h => by
    obtain ⟨left, hl, h'⟩ := bind_eq_ok h
    obtain ⟨right, hr, -⟩ := bind_eq_ok h'
    intro x hx
    rw [literals, List.mem_append] at hx
    exact hx.elim (source_finite hl x) (source_finite hr x)
  | group e, text, h => by
    obtain ⟨inner, hi, -⟩ := bind_eq_ok h
    rw [literals]
    exact source_finite hi
  | call f args, text, h => by
    obtain ⟨texts, hs, -⟩ := bind_eq_ok h
    exact sources_finite hs
  | foreign _, _, h => by cases h

theorem sources_finite : ∀ {es : List Expr} {texts : List String}, sources es = .ok texts →
    ∀ x ∈ allLiterals es, x.isFinite = true
  | [], _, _ => by simp [allLiterals]
  | e :: es, texts, h => by
    obtain ⟨first, hf, h'⟩ := bind_eq_ok h
    obtain ⟨rest, hr, -⟩ := bind_eq_ok h'
    intro x hx
    rw [allLiterals, List.mem_append] at hx
    exact hx.elim (source_finite hf x) (sources_finite hr x)

end

end Expr
end Calculator
