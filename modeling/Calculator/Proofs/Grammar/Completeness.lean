import Calculator.Proofs.Grammar.Soundness
import Calculator.Proofs.Grammar.Unambiguous

/-!
# What has a derivation is read

`complete`: behind any derivation that stops where it stops, the reader of its nonterminal returns what the
derivation builds, if the limit of nesting is at least the depth of the derivation and the room at least
its length.
-/

namespace Calculator.Grammar
open Grammar.Derivation

def Phrase.reader (room : Nat) (operand : Reader Expr) : Phrase → Reader Expr
  | chain .bitOr => Reader.expression room operand
  | chain .bitAnd => Reader.chain Reader.andOperator? room <| Reader.chain Reader.sumOperator? room <|
      Reader.chain Reader.productOperator? room operand
  | chain .sum => Reader.chain Reader.sumOperator? room <| Reader.chain Reader.productOperator? room operand
  | chain .product => Reader.chain Reader.productOperator? room operand
  | unary => operand
  | power => Reader.power room operand
  | primary => Reader.primary room (Reader.expression room operand)

theorem reader_chain (tier : Tier) (room : Nat) (operand : Reader Expr) :
    (Phrase.chain tier).reader room operand =
      Reader.chain tier.operator? room (tier.operand.reader room operand) := by
  cases tier <;> rfl

namespace Derivation

/-- The limit of nesting that a derivation needs: operands within operands. -/
def depth : {nt : Nonterminal} → Derivation nt → Nat
  | _, chain first more => max first.depth more.depth
  | _, done => 0
  | _, link _ _ _ right more => max right.depth more.depth
  | _, signed _ _ _ operand => operand.depth + 1
  | _, unsigned power => power.depth + 1
  | _, plain base => base.depth
  | _, raised base exponent => max base.depth exponent.depth
  | _, number _ => 0
  | _, name _ => 0
  | _, call _ args => args.depth
  | _, group inner => inner.depth
  | _, noArguments => 0
  | _, someArguments first more => max first.depth more.depth
  | _, noMore => 0
  | _, oneMore arg more => max arg.depth more.depth

/-- Every level of nesting takes a lexeme; below a sign there is one left for the operand. -/
theorem depth_le_length {nt : Nonterminal} (d : Derivation nt) :
    d.depth ≤ d.lexemes.length ∧
      (nt = .phrase .power ∨ nt = .phrase .primary → d.depth + 1 ≤ d.lexemes.length) := by
  induction d with
  | chain first more hf hm =>
    refine ⟨?_, by simp⟩
    simp only [depth, lexemes, List.length_append]
    omega
  | link s op joins right more hr hm =>
    refine ⟨?_, by simp⟩
    simp only [depth, lexemes, List.length_append, List.length_cons]
    omega
  | unsigned power hp =>
    refine ⟨?_, by simp⟩
    have := hp.2 (.inl rfl)
    simpa [depth, lexemes] using this
  | plain base hb =>
    have := hb.2 (.inr rfl)
    exact ⟨hb.1, fun _ => this⟩
  | raised base exponent hb he =>
    have := hb.2 (.inr rfl)
    simp only [depth, lexemes, List.length_append, List.length_cons]
    omega
  | _ =>
    simp only [depth, lexemes, List.length_append, List.length_cons, List.length_nil] at *
    simp
    try omega

end Derivation

/-! ## What each nonterminal has to read -/

/-- The reader of its nonterminal reads the derivation wherever it stops. A repetition goes on from what has
been read before it. -/
def Complete (room limit : Nat) : {nt : Nonterminal} → Derivation nt → Prop
  | .phrase p, d => ∀ rest, p.Stops rest →
      p.reader room (Reader.operand room limit) (d.lexemes ++ rest) = .ok (d.value, rest)
  | .more tier, d => ∀ n left rest, d.lexemes.length ≤ n → (Phrase.chain tier).Stops rest →
      Reader.chainFrom tier.operator? (tier.operand.reader room (Reader.operand room limit)) n left
        (d.lexemes ++ rest) = .ok (joinAll left d.value, rest)
  | .arguments, d => ∀ rest, rest.head? = some (.symbol .closing) →
      Reader.arguments room (Reader.expression room (Reader.operand room limit)) (d.lexemes ++ rest) =
        .ok (d.value, rest)
  | .moreArguments, d => ∀ n read rest, d.lexemes.length ≤ n → rest.head? = some (.symbol .closing) →
      Reader.argumentsFrom (Reader.expression room (Reader.operand room limit)) n read (d.lexemes ++ rest) =
        .ok (read.reverse ++ d.value, rest)

/-! ## Chains -/

section
variable {room limit : Nat} {tier : Tier} {right : Derivation (.phrase tier.operand)}
  {more : Derivation (.more tier)}

theorem complete_chain (hroom : more.lexemes.length ≤ room) (hf : Complete room limit right)
    (hm : Complete room limit more) : Complete room limit (chain right more) := by
  intro rest h
  rw [reader_chain, lexemes, List.append_assoc, chain_eq, hf _ (more_stops more h)]
  exact hm room _ rest hroom h

theorem complete_done : Complete room limit (done : Derivation (.more tier)) := by
  intro n left rest _ h
  rw [lexemes, List.nil_append, chainFrom_stop]
  · rfl
  · exact fun s op joins => h s (continuation joins)

theorem complete_link {s : Symbol} {op : Operator} (joins : Joins tier s op) (hr : Complete room limit right)
    (hm : Complete room limit more) : Complete room limit (link s op joins right more) := by
  intro n left rest hn h
  simp only [lexemes, List.length_cons, List.length_append] at hn
  obtain ⟨n, rfl⟩ : ∃ m, n = m + 1 := ⟨n - 1, by omega⟩
  rw [lexemes, List.cons_append, List.append_assoc, chainFrom_link joins, hr _ (more_stops more h)]
  exact hm n _ rest (by omega) h

end

/-! ## Arguments and primaries -/

theorem head?_append {p : Phrase} (d : Derivation (.phrase p)) (rest : List Lexeme) :
    ∃ l, (d.lexemes ++ rest).head? = some l ∧ startsOperand l = true := by
  obtain ⟨l, ls, h, hl⟩ := head_phrase d
  exact ⟨l, by simp [h], hl⟩

theorem head?_ne_closing {p : Phrase} (d : Derivation (.phrase p)) (rest : List Lexeme) :
    (d.lexemes ++ rest).head? ≠ some (.symbol .closing) := by
  obtain ⟨l, h, hl⟩ := head?_append d rest
  rw [h]
  rintro ⟨⟩
  cases hl

theorem argument_expression (inner : Reader Expr) (d : Expression) (rest : List Lexeme) :
    Reader.argument inner (d.lexemes ++ rest) = inner (d.lexemes ++ rest) := by
  obtain ⟨l, h, hl⟩ := head?_append d rest
  rw [Reader.argument]
  · intro tail he; rw [he] at h; cases h; cases hl
  · intro tail he; rw [he] at h; cases h; cases hl

section
variable {room limit : Nat} {args : Derivation .arguments} {first : Expression} {more : Derivation .moreArguments}

theorem complete_number (n : Numeral) : Complete room limit (number n) := fun _ _ => rfl

theorem complete_name (n : String) : Complete room limit (name n) :=
  fun _ h => primary_name (h .opening (by decide)) room _ n

theorem complete_call (f : String) (ha : Complete room limit args) : Complete room limit (call f args) := by
  intro rest h
  rw [Phrase.reader, lexemes, List.cons_append, List.cons_append, List.append_assoc, primary_call, ha _ rfl]
  rfl

theorem complete_group (hi : Complete room limit first) : Complete room limit (group first) := by
  intro rest h
  have hread : Reader.expression room (Reader.operand room limit) (first.lexemes ++ .symbol .closing :: rest) =
      .ok (first.value, .symbol .closing :: rest) := hi _ (closing_stops _ rest)
  rw [Phrase.reader, lexemes, List.cons_append, List.append_assoc, primary_group (head?_ne_closing first _)]
  exact congrArg (Except.bind · _) hread

theorem complete_noArguments : Complete room limit noArguments := by
  intro rest h
  obtain ⟨tail, rfl⟩ := List.head?_eq_some_iff.mp h
  rfl

theorem complete_someArguments (hroom : more.lexemes.length ≤ room) (hf : Complete room limit first)
    (hm : Complete room limit more) : Complete room limit (someArguments first more) := by
  intro rest h
  have hread : Reader.expression room (Reader.operand room limit) (first.lexemes ++ (more.lexemes ++ rest)) =
      .ok (first.value, more.lexemes ++ rest) := hf _ (moreArguments_stops more h _)
  rw [lexemes, List.append_assoc, arguments_some (head?_ne_closing first _), argument_expression, hread]
  exact hm room _ rest hroom h

theorem complete_noMore : Complete room limit noMore := by
  intro n read rest _ h
  rw [lexemes, List.nil_append, argumentsFrom_stop]
  · simp [value]
  · rw [h]; decide

theorem complete_oneMore (hf : Complete room limit first) (hm : Complete room limit more) :
    Complete room limit (oneMore first more) := by
  intro n read rest hn h
  simp only [lexemes, List.length_cons, List.length_append] at hn
  obtain ⟨n, rfl⟩ : ∃ m, n = m + 1 := ⟨n - 1, by omega⟩
  have hread : Reader.expression room (Reader.operand room limit) (first.lexemes ++ (more.lexemes ++ rest)) =
      .ok (first.value, more.lexemes ++ rest) := hf _ (moreArguments_stops more h _)
  rw [lexemes, List.cons_append, List.append_assoc, argumentsFrom_comma, argument_expression, hread]
  simpa [value, Except.bind] using hm n (first.value :: read) rest (by omega) h

end

/-! ## Powers and signs -/

section
variable {room limit : Nat} {operand : Derivation (.phrase .unary)} {power : Derivation (.phrase .power)}
  {base : Derivation (.phrase .primary)}

theorem power_of_base (hb : Complete room limit base) {rest : List Lexeme} (h : Phrase.primary.Stops rest) :
    Reader.power room (Reader.operand room limit) (base.lexemes ++ rest) =
      raise (Reader.operand room limit) (base.value, rest) := by
  have hread : Reader.primary room (Reader.expression room (Reader.operand room limit)) (base.lexemes ++ rest) =
      .ok (base.value, rest) := hb rest h
  rw [power_eq, hread]
  rfl

theorem complete_plain (hb : Complete room limit base) : Complete room limit (plain base) := by
  intro rest h
  rw [Phrase.reader, lexemes, power_of_base hb (power_stops_base h), raise]
  · rfl
  · rintro tail rfl; exact h .opening (by decide) rfl
  · rintro tail rfl; exact h .caret (by decide) rfl

theorem complete_raised (hb : Complete room limit base) (ho : Complete room limit operand) :
    Complete room limit (raised base operand) := by
  intro rest h
  have hexp : Reader.operand room limit (operand.lexemes ++ rest) = .ok (operand.value, rest) := ho rest h
  rw [Phrase.reader, lexemes, List.append_assoc, List.cons_append, power_of_base hb (caret_stops_base _), raise, hexp]
  rfl

theorem complete_signed {s : Symbol} {sign : Sign} (signs : Signs s sign) (ho : Complete room limit operand) :
    Complete room (limit + 1) (signed s sign signs operand) := by
  intro rest h
  have hread : Reader.operand room limit (operand.lexemes ++ rest) = .ok (operand.value, rest) := ho rest h
  rw [Phrase.reader, lexemes, List.cons_append, operand_signed signs, hread]
  rfl

theorem head?_ne_sign (power : Derivation (.phrase .power)) (rest : List Lexeme) (s : Symbol) (sign : Sign)
    (signs : Signs s sign) : (power.lexemes ++ rest).head? ≠ some (.symbol s) := by
  obtain ⟨l, ls, h, hl⟩ := head_power power
  rw [h]
  rintro ⟨⟩
  cases signs <;> cases hl

theorem complete_unsigned (hp : Complete room limit power) : Complete room (limit + 1) (unsigned power) := by
  intro rest h
  rw [Phrase.reader, lexemes, operand_unsigned (head?_ne_sign power rest)]
  exact hp rest (h.mono (by decide))

end

/-! ## All derivations -/

theorem complete {nt : Nonterminal} (d : Derivation nt) {room : Nat} : ∀ {limit : Nat},
    d.lexemes.length ≤ room → d.depth ≤ limit → Complete room limit d := by
  induction d with
  | chain first more hf hm =>
    intro limit hr hd
    simp only [lexemes, List.length_append, depth] at hr hd
    exact complete_chain (by omega) (hf (by omega) (by omega)) (hm (by omega) (by omega))
  | done => exact fun _ _ => complete_done
  | link s op joins right more hr hm =>
    intro limit hroom hd
    simp only [lexemes, List.length_cons, List.length_append, depth] at hroom hd
    exact complete_link joins (hr (by omega) (by omega)) (hm (by omega) (by omega))
  | signed s sign signs operand ho =>
    intro limit hr hd
    simp only [lexemes, List.length_cons, depth] at hr hd
    obtain ⟨limit, rfl⟩ : ∃ m, limit = m + 1 := ⟨limit - 1, by omega⟩
    exact complete_signed signs (ho (by omega) (by omega))
  | unsigned power hp =>
    intro limit hr hd
    simp only [lexemes, depth] at hr hd
    obtain ⟨limit, rfl⟩ : ∃ m, limit = m + 1 := ⟨limit - 1, by omega⟩
    exact complete_unsigned (hp (by omega) (by omega))
  | plain base hb => exact fun hr hd => complete_plain (hb hr hd)
  | raised base exponent hb he =>
    intro limit hr hd
    simp only [lexemes, List.length_append, List.length_cons, depth] at hr hd
    exact complete_raised (hb (by omega) (by omega)) (he (by omega) (by omega))
  | number n => exact fun _ _ => complete_number n
  | name n => exact fun _ _ => complete_name n
  | call f args ha =>
    intro limit hr hd
    simp only [lexemes, List.length_append, List.length_cons, depth] at hr hd
    exact complete_call f (ha (by omega) (by omega))
  | group inner hi =>
    intro limit hr hd
    simp only [lexemes, List.length_append, List.length_cons, depth] at hr hd
    exact complete_group (hi (by omega) (by omega))
  | noArguments => exact fun _ _ => complete_noArguments
  | someArguments first more hf hm =>
    intro limit hr hd
    simp only [lexemes, List.length_append, depth] at hr hd
    exact complete_someArguments (by omega) (hf (by omega) (by omega)) (hm (by omega) (by omega))
  | noMore => exact fun _ _ => complete_noMore
  | oneMore arg more ha hm =>
    intro limit hr hd
    simp only [lexemes, List.length_cons, List.length_append, depth] at hr hd
    exact complete_oneMore (ha (by omega) (by omega)) (hm (by omega) (by omega))

end Calculator.Grammar
