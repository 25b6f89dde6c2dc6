import Calculator.Proofs.Grammar.Equations

/-!
# What is read has a derivation

`operand_sound`, `expression_sound`: whatever a reader returns, the lexemes that it has taken have a
derivation that builds it, at any limit of nesting and with any room for chains.
-/

namespace Calculator.Grammar
open Grammar.Derivation

def Sound (nt : Nonterminal) (r : Reader nt.Value) : Prop :=
  ∀ ahead v rest, r ahead = .ok (v, rest) → ∃ d : Derivation nt, d.lexemes ++ rest = ahead ∧ d.value = v

theorem Sound.length_le {nt : Nonterminal} {r : Reader nt.Value} (h : Sound nt r) {ahead : List Lexeme}
    {p : nt.Value × List Lexeme} (hr : r ahead = .ok p) : p.2.length ≤ ahead.length := by
  obtain ⟨d, rfl, -⟩ := h _ _ _ hr
  simp

/-! ## Chains -/

section
variable {tier : Tier} {operand : Reader Expr} (ho : Sound (.phrase tier.operand) operand)
include ho

theorem chainFrom_sound : ∀ (room : Nat) {left : Expr} {ahead : List Lexeme} {e : Expr} {rest : List Lexeme},
    Reader.chainFrom tier.operator? operand room left ahead = .ok (e, rest) →
    ∃ more : Derivation (.more tier), more.lexemes ++ rest = ahead ∧ joinAll left more.value = e
  | 0, left, ahead, e, rest, h => by
    cases h
    exact ⟨.done, rfl, rfl⟩
  | room + 1, left, ahead, e, rest, h => by
    rcases linked_or_not tier ahead with ⟨s, op, behind, hj, rfl⟩ | hj
    · rw [chainFrom_link hj] at h
      obtain ⟨⟨right, after⟩, hr, hc⟩ := bind_eq_ok h
      obtain ⟨d, rfl, hv⟩ := ho _ _ _ hr
      obtain ⟨more, hl, hm⟩ := chainFrom_sound room hc
      refine ⟨.link s op hj d more, by simp [lexemes, hl], ?_⟩
      simpa [value, joinAll, hv] using hm
    · rw [chainFrom_stop hj] at h
      cases h
      exact ⟨.done, rfl, rfl⟩

variable (tier) in
theorem chain_sound (room : Nat) : Sound (.phrase (.chain tier)) (Reader.chain tier.operator? room operand) := by
  intro ahead e rest h
  rw [chain_eq] at h
  obtain ⟨⟨first, after⟩, hf, hc⟩ := bind_eq_ok h
  obtain ⟨d, rfl, hv⟩ := ho _ _ _ hf
  obtain ⟨more, hl, hm⟩ := chainFrom_sound ho room hc
  exact ⟨.chain d more, by simp [lexemes, hl], by simp [value, hv, hm]⟩

end

theorem expression_sound {operand : Reader Expr} (ho : Sound (.phrase .unary) operand) (room : Nat) :
    Sound (.phrase (.chain .bitOr)) (Reader.expression room operand) := by
  have product : Sound (.phrase (.chain .product)) _ := chain_sound .product ho room
  have sum : Sound (.phrase (.chain .sum)) _ := chain_sound .sum product room
  have and : Sound (.phrase (.chain .bitAnd)) _ := chain_sound .bitAnd sum room
  exact chain_sound .bitOr and room

/-! ## Arguments and operands -/

section
variable {inner : Reader Expr} (hi : Sound (.phrase (.chain .bitOr)) inner)
include hi

theorem argumentsFrom_sound : ∀ (room : Nat) {read : List Expr} {ahead : List Lexeme} {es : List Expr}
    {rest : List Lexeme}, Reader.argumentsFrom inner room read ahead = .ok (es, rest) →
    ∃ more : Derivation .moreArguments, more.lexemes ++ rest = ahead ∧ read.reverse ++ more.value = es
  | 0, read, ahead, es, rest, h => by
    simp only [Reader.argumentsFrom, Except.ok.injEq, Prod.mk.injEq] at h
    obtain ⟨rfl, rfl⟩ := h
    exact ⟨.noMore, rfl, by simp [value]⟩
  | room + 1, read, ahead, es, rest, h => by
    by_cases hc : ahead.head? = some (.symbol .comma)
    · obtain ⟨behind, rfl⟩ := List.head?_eq_some_iff.mp hc
      rw [argumentsFrom_comma] at h
      obtain ⟨⟨next, after⟩, hn, ha⟩ := bind_eq_ok h
      obtain ⟨d, rfl, hv⟩ := hi _ _ _ (argument_eq_ok hn)
      obtain ⟨more, hl, hm⟩ := argumentsFrom_sound room ha
      refine ⟨.oneMore d more, by simp [lexemes, hl], ?_⟩
      simpa [value, hv] using hm
    · rw [argumentsFrom_stop hc] at h
      cases h
      exact ⟨.noMore, rfl, by simp [value]⟩

theorem arguments_sound (room : Nat) : Sound .arguments (Reader.arguments room inner) := by
  intro ahead es rest h
  by_cases hc : ahead.head? = some (.symbol .closing)
  · obtain ⟨behind, rfl⟩ := List.head?_eq_some_iff.mp hc
    cases h
    exact ⟨.noArguments, rfl, rfl⟩
  · rw [arguments_some hc] at h
    obtain ⟨⟨first, after⟩, hf, ha⟩ := bind_eq_ok h
    obtain ⟨d, rfl, hv⟩ := hi _ _ _ (argument_eq_ok hf)
    obtain ⟨more, hl, hm⟩ := argumentsFrom_sound hi room ha
    refine ⟨.someArguments d more, by simp [lexemes, hl], ?_⟩
    simpa [value, hv] using hm

theorem call_sound {room : Nat} {f : String} {behind rest : List Lexeme} {e : Expr}
    (h : Reader.primary room inner (.name f :: .symbol .opening :: behind) = .ok (e, rest)) :
    ∃ d : Derivation (.phrase .primary), d.lexemes ++ rest = .name f :: .symbol .opening :: behind ∧ d.value = e := by
  rw [primary_call] at h
  obtain ⟨⟨args, after⟩, ha, hrest⟩ := bind_eq_ok h
  obtain ⟨last, hc, he⟩ := bind_eq_ok hrest
  cases he
  obtain rfl : after = .symbol .closing :: rest := close_eq_ok hc
  obtain ⟨d, rfl, rfl⟩ := arguments_sound hi room _ _ _ ha
  exact ⟨.call f d, by simp [lexemes], rfl⟩

theorem group_sound {room : Nat} {behind rest : List Lexeme} {e : Expr}
    (h : Reader.primary room inner (.symbol .opening :: behind) = .ok (e, rest)) :
    ∃ d : Derivation (.phrase .primary), d.lexemes ++ rest = .symbol .opening :: behind ∧ d.value = e := by
  by_cases hc : behind.head? = some (.symbol .closing)
  · obtain ⟨tail, rfl⟩ := List.head?_eq_some_iff.mp hc
    cases h
  · rw [primary_group hc] at h
    obtain ⟨⟨inside, after⟩, hin, hrest⟩ := bind_eq_ok h
    obtain ⟨last, hclose, he⟩ := bind_eq_ok hrest
    cases he
    obtain rfl : after = .symbol .closing :: rest := close_eq_ok hclose
    obtain ⟨d, rfl, rfl⟩ := hi _ _ _ hin
    exact ⟨.group d, by simp [lexemes], rfl⟩

theorem primary_sound (room : Nat) : Sound (.phrase .primary) (Reader.primary room inner)
  | [], e, rest, h => by cases h
  | .number n :: behind, e, rest, h => by
    cases h
    exact ⟨.number n, rfl, rfl⟩
  | .name n :: behind, e, rest, h => by
    by_cases hc : behind.head? = some (.symbol .opening)
    · obtain ⟨tail, rfl⟩ := List.head?_eq_some_iff.mp hc
      exact call_sound hi h
    · rw [primary_name hc] at h
      cases h
      exact ⟨.name n, rfl, rfl⟩
  | .symbol s :: behind, e, rest, h => by
    cases s with
    | opening => exact group_sound hi h
    | _ => cases h

end

theorem raise_sound {operand : Reader Expr} (ho : Sound (.phrase .unary) operand)
    (base : Derivation (.phrase .primary)) {after rest : List Lexeme} {e : Expr}
    (h : raise operand (base.value, after) = .ok (e, rest)) :
    ∃ d : Derivation (.phrase .power), d.lexemes ++ rest = base.lexemes ++ after ∧ d.value = e := by
  unfold raise at h
  split at h
  · cases h
  · rename_i b behind he
    cases he
    obtain ⟨⟨exponent, last⟩, hx, hlast⟩ := bind_eq_ok h
    cases hlast
    obtain ⟨x, rfl, rfl⟩ := ho _ _ _ hx
    exact ⟨.raised base x, by simp [lexemes], rfl⟩
  · rename_i he
    cases he
    cases h
    exact ⟨.plain base, rfl, rfl⟩

theorem power_sound {operand : Reader Expr} (ho : Sound (.phrase .unary) operand) (room : Nat) :
    Sound (.phrase .power) (Reader.power room operand) := by
  intro ahead e rest h
  rw [power_eq] at h
  obtain ⟨⟨base, after⟩, hb, hr⟩ := bind_eq_ok h
  obtain ⟨d, rfl, rfl⟩ := primary_sound (expression_sound ho room) room _ _ _ hb
  exact raise_sound ho d hr

theorem operand_sound (room : Nat) : ∀ limit, Sound (.phrase .unary) (Reader.operand room limit)
  | 0, ahead, e, rest, h => by cases h
  | limit + 1, ahead, e, rest, h => by
    rcases signed_or_not ahead with ⟨s, sign, behind, hs, rfl⟩ | hs
    · rw [operand_signed hs] at h
      obtain ⟨⟨inner, after⟩, hi, hlast⟩ := bind_eq_ok h
      cases hlast
      obtain ⟨d, rfl, rfl⟩ := operand_sound room limit _ _ _ hi
      exact ⟨.signed s sign hs d, rfl, rfl⟩
    · rw [operand_unsigned hs] at h
      obtain ⟨d, hl, hv⟩ := power_sound (operand_sound room limit) room _ _ _ h
      exact ⟨.unsigned d, hl, hv⟩

end Calculator.Grammar
