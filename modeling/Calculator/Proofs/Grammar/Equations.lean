import Calculator.Proofs.Grammar.Derivation

/-!
# Readers step by step

Each reader as a sequence of smaller readers, one equation for every way in which it can go on. Which
equation applies is decided by the next lexeme.
-/

namespace Calculator.Grammar

theorem bind_eq_ok {ε α β : Type} {x : Except ε α} {f : α → Except ε β} {b : β} (h : x.bind f = .ok b) :
    ∃ a, x = .ok a ∧ f a = .ok b := by
  cases x with
  | error e => cases h
  | ok a => exact ⟨a, rfl, h⟩

theorem bind_bind {ε α β γ : Type} (x : Except ε α) (f : α → Except ε β) (g : β → Except ε γ) :
    (x.bind f).bind g = x.bind fun a => (f a).bind g := by
  cases x <;> rfl

/-! ## Operator tables -/

def Tier.operator? : Tier → Symbol → Option Operator
  | bitOr => Reader.orOperator?
  | bitAnd => Reader.andOperator?
  | sum => Reader.sumOperator?
  | product => Reader.productOperator?

theorem Tier.operator?_eq_some_iff {tier : Tier} {s : Symbol} {op : Operator} :
    tier.operator? s = some op ↔ Joins tier s op := by
  constructor
  · intro h
    cases tier <;> cases s <;> cases h <;> constructor
  · intro h
    cases h <;> rfl

theorem sign?_eq_some_iff {s : Symbol} {sign : Sign} : Reader.sign? s = some sign ↔ Signs s sign := by
  constructor
  · intro h
    cases s <;> cases h <;> constructor
  · intro h
    cases h <;> rfl

/-! ## Chains -/

theorem chain_eq (operator? : Symbol → Option Operator) (room : Nat) (operand : Reader Expr) (ahead : List Lexeme) :
    Reader.chain operator? room operand ahead =
      (operand ahead).bind fun p => Reader.chainFrom operator? operand room p.1 p.2 := by
  unfold Reader.chain
  cases operand ahead <;> rfl

theorem chainFrom_link {tier : Tier} {s : Symbol} {op : Operator} (h : Joins tier s op) (operand : Reader Expr)
    (room : Nat) (left : Expr) (rest : List Lexeme) :
    Reader.chainFrom tier.operator? operand (room + 1) left (.symbol s :: rest) =
      (operand rest).bind fun p => Reader.chainFrom tier.operator? operand room (.binary op left p.1) p.2 := by
  rw [Reader.chainFrom, Tier.operator?_eq_some_iff.mpr h]
  cases operand rest <;> rfl

theorem chainFrom_stop {tier : Tier} {ahead : List Lexeme}
    (h : ∀ s op, Joins tier s op → ahead.head? ≠ some (.symbol s)) (operand : Reader Expr) (room : Nat)
    (left : Expr) : Reader.chainFrom tier.operator? operand room left ahead = .ok (left, ahead) := by
  cases room with
  | zero => rfl
  | succ room =>
    unfold Reader.chainFrom
    split
    · rename_i s rest
      cases hs : tier.operator? s with
      | none => rfl
      | some op => exact absurd rfl (h s op (Tier.operator?_eq_some_iff.mp hs))
    · rfl

theorem linked_or_not (tier : Tier) (ahead : List Lexeme) :
    (∃ s op rest, Joins tier s op ∧ ahead = .symbol s :: rest) ∨
      ∀ s op, Joins tier s op → ahead.head? ≠ some (.symbol s) := by
  by_cases h : ∃ s op, Joins tier s op ∧ ahead.head? = some (.symbol s)
  · obtain ⟨s, op, hj, hh⟩ := h
    obtain ⟨rest, rfl⟩ := List.head?_eq_some_iff.mp hh
    exact .inl ⟨s, op, rest, hj, rfl⟩
  · exact .inr fun s op hj hh => h ⟨s, op, hj, hh⟩

/-! ## Arguments and parentheses -/

theorem argument_eq_ok {inner : Reader Expr} {ahead : List Lexeme} {p : Expr × List Lexeme}
    (h : Reader.argument inner ahead = .ok p) : inner ahead = .ok p := by
  unfold Reader.argument at h
  split at h
  · cases h
  · cases h
  · exact h

theorem argumentsFrom_comma (inner : Reader Expr) (room : Nat) (read : List Expr) (rest : List Lexeme) :
    Reader.argumentsFrom inner (room + 1) read (.symbol .comma :: rest) =
      (Reader.argument inner rest).bind fun p => Reader.argumentsFrom inner room (p.1 :: read) p.2 := by
  rw [Reader.argumentsFrom]
  cases Reader.argument inner rest <;> rfl

theorem argumentsFrom_stop {ahead : List Lexeme} (h : ahead.head? ≠ some (.symbol .comma)) (inner : Reader Expr)
    (room : Nat) (read : List Expr) : Reader.argumentsFrom inner room read ahead = .ok (read.reverse, ahead) := by
  rw [Reader.argumentsFrom]
  rintro room' rest rfl rfl
  exact h rfl

theorem arguments_some {ahead : List Lexeme} (h : ahead.head? ≠ some (.symbol .closing)) (room : Nat)
    (inner : Reader Expr) : Reader.arguments room inner ahead =
      (Reader.argument inner ahead).bind fun p => Reader.argumentsFrom inner room [p.1] p.2 := by
  rw [Reader.arguments]
  · cases Reader.argument inner ahead <;> rfl
  · rintro rest rfl
    exact h rfl

theorem close_eq_ok {opened ahead rest : List Lexeme} (h : Reader.close opened ahead = .ok rest) :
    ahead = .symbol .closing :: rest := by
  unfold Reader.close at h
  split at h
  · cases h; rfl
  · cases h
  · unfold Reader.unexpected at h
    split at h <;> cases h

/-! ## Operands -/

theorem primary_call (room : Nat) (inner : Reader Expr) (f : String) (rest : List Lexeme) :
    Reader.primary room inner (.name f :: .symbol .opening :: rest) =
      (Reader.arguments room inner rest).bind fun p =>
        (Reader.close (.symbol .opening :: rest) p.2).bind fun after => .ok (.call f p.1, after) := by
  rw [Reader.primary]
  cases Reader.arguments room inner rest with
  | error e => rfl
  | ok p =>
    dsimp only [Except.bind]
    cases Reader.close (.symbol .opening :: rest) p.2 <;> rfl

theorem primary_name {rest : List Lexeme} (h : rest.head? ≠ some (.symbol .opening)) (room : Nat)
    (inner : Reader Expr) (n : String) : Reader.primary room inner (.name n :: rest) = .ok (.name n, rest) := by
  rw [Reader.primary]
  rintro tail rfl
  exact h rfl

theorem primary_group {rest : List Lexeme} (h : rest.head? ≠ some (.symbol .closing)) (room : Nat)
    (inner : Reader Expr) : Reader.primary room inner (.symbol .opening :: rest) =
      (inner rest).bind fun p =>
        (Reader.close (.symbol .opening :: rest) p.2).bind fun after => .ok (.group p.1, after) := by
  rw [Reader.primary]
  · cases inner rest with
    | error e => rfl
    | ok p =>
      dsimp only [Except.bind]
      cases Reader.close (.symbol .opening :: rest) p.2 <;> rfl
  · rintro tail rfl
    exact h rfl

theorem primary_other {ahead : List Lexeme} (h : ∀ l ∈ ahead.head?, startsPrimary l = false) (room : Nat)
    (inner : Reader Expr) : Reader.primary room inner ahead = Reader.unexpected ahead := by
  cases ahead with
  | nil => rfl
  | cons l rest =>
    cases l with
    | symbol s => cases s <;> first | rfl | exact absurd (h _ rfl) (by decide)
    | _ => exact absurd (h _ rfl) (by simp [startsPrimary])

def raise (operand : Reader Expr) : Expr × List Lexeme → Except GrammarError (Expr × List Lexeme)
  | (_, .symbol .opening :: rest) => Reader.fail .calleeNotName (.symbol .opening :: rest)
  | (base, .symbol .caret :: rest) => (operand rest).bind fun p => .ok (.binary .pow base p.1, p.2)
  | (base, after) => .ok (base, after)

theorem power_eq (room : Nat) (operand : Reader Expr) (ahead : List Lexeme) :
    Reader.power room operand ahead =
      (Reader.primary room (Reader.expression room operand) ahead).bind (raise operand) := by
  unfold Reader.power
  split
  · rename_i h; rw [h]; rfl
  · rename_i h; rw [h]; rfl
  · rename_i base rest h
    rw [h, Except.bind, raise]
    cases operand rest <;> rfl
  · rename_i base after ho hc h
    rw [h, Except.bind, raise]
    · exact fun tail => ho tail
    · exact fun tail => hc tail

theorem operand_signed {s : Symbol} {sign : Sign} (h : Signs s sign) (room limit : Nat) (rest : List Lexeme) :
    Reader.operand room (limit + 1) (.symbol s :: rest) =
      (Reader.operand room limit rest).bind fun p => .ok (.signed sign p.1, p.2) := by
  rw [Reader.operand, sign?_eq_some_iff.mpr h]
  cases Reader.operand room limit rest <;> rfl

theorem operand_unsigned {ahead : List Lexeme} (h : ∀ s sign, Signs s sign → ahead.head? ≠ some (.symbol s))
    (room limit : Nat) :
    Reader.operand room (limit + 1) ahead = Reader.power room (Reader.operand room limit) ahead := by
  cases ahead with
  | nil => rfl
  | cons l rest =>
    cases l with
    | symbol s =>
      cases hs : Reader.sign? s with
      | none => rw [Reader.operand, hs]
      | some sign => exact absurd rfl (h s sign (sign?_eq_some_iff.mp hs))
    | _ => rfl

theorem signed_or_not (ahead : List Lexeme) :
    (∃ s sign rest, Signs s sign ∧ ahead = .symbol s :: rest) ∨
      ∀ s sign, Signs s sign → ahead.head? ≠ some (.symbol s) := by
  by_cases h : ∃ s sign, Signs s sign ∧ ahead.head? = some (.symbol s)
  · obtain ⟨s, sign, hs, hh⟩ := h
    obtain ⟨rest, rfl⟩ := List.head?_eq_some_iff.mp hh
    exact .inl ⟨s, sign, rest, hs, rfl⟩
  · exact .inr fun s sign hs hh => h ⟨s, sign, hs, hh⟩

end Calculator.Grammar
