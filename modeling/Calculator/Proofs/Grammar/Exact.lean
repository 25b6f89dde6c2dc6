import Calculator.Proofs.Grammar.Blocked
import Calculator.Proofs.Grammar.Soundness

/-!
# Readers fail at the first lexeme that is impossible

`operand_exact`, `expression_exact`: a reader takes lexemes up to one that cannot be part of its phrase, and fails only
as `Blocked` says.
-/

namespace Calculator.Grammar
open Grammar.Derivation

/-- The reader reads whole phrases and no more, of lists that are no longer than its room. -/
structure Exact (room : Nat) (p : Phrase) (r : Reader Expr) : Prop where
  sound : Sound (.phrase p) r
  stops : ∀ {ahead e rest}, ahead.length ≤ room → r ahead = .ok (e, rest) → p.Stops rest
  blocked : ∀ {ahead e}, ahead.length ≤ room → r ahead = .error e → Blocked (.phrase p) ahead e

theorem Exact.read {room : Nat} {p : Phrase} {r : Reader Expr} (h : Exact room p r) {ahead : List Lexeme}
    (hroom : ahead.length ≤ room) {v : Expr} {rest : List Lexeme} (hr : r ahead = .ok (v, rest)) :
    ∃ d : Derivation (.phrase p), ahead = d.lexemes ++ rest ∧ p.Stops rest := by
  obtain ⟨d, hd, -⟩ := h.sound _ _ _ hr
  exact ⟨d, hd.symm, h.stops hroom hr⟩

/-! ## Chains -/

section
variable {tier : Tier} {room : Nat} {operand : Reader Expr} (ho : Exact room tier.operand operand)
include ho

theorem chainFrom_stops : ∀ {n : Nat} {left : Expr} {ahead : List Lexeme} {e : Expr} {rest : List Lexeme}, n ≤ room →
    ahead.length ≤ n → tier.operand.Stops ahead →
    Reader.chainFrom tier.operator? operand n left ahead = .ok (e, rest) → (Phrase.chain tier).Stops rest
  | 0, _, ahead, _, _, _, hn, _, h => by
    obtain rfl : ahead = [] := List.length_eq_zero_iff.mp (Nat.le_zero.mp hn)
    cases h
    exact Phrase.stops_nil _
  | n + 1, _, ahead, _, _, hroom, hn, hs, h => by
    rcases linked_or_not tier ahead with ⟨s, op, behind, hj, rfl⟩ | hj
    · rw [List.length_cons] at hn
      rw [chainFrom_link hj] at h
      obtain ⟨⟨right, after⟩, hr, hc⟩ := bind_eq_ok h
      have hlen : after.length ≤ behind.length := ho.sound.length_le hr
      exact chainFrom_stops (Nat.le_of_succ_le hroom) (by omega) (ho.stops (by omega) hr) hc
    · rw [chainFrom_stop hj] at h
      cases h
      exact hs.chain hj

theorem chainFrom_blocked : ∀ {n : Nat} {left : Expr} {ahead : List Lexeme} {e : GrammarError}, n ≤ room →
    ahead.length ≤ n → Reader.chainFrom tier.operator? operand n left ahead = .error e → Blocked (.more tier) ahead e
  | 0, _, _, _, _, _, h => by cases h
  | n + 1, _, ahead, e, hroom, hn, h => by
    rcases linked_or_not tier ahead with ⟨s, op, behind, hj, rfl⟩ | hj
    · rw [List.length_cons] at hn
      rw [chainFrom_link hj] at h
      rcases bind_eq_error h with hr | ⟨⟨right, after⟩, hr, hc⟩
      · have hf : ∀ d, (link s op hj d done).lexemes = [.symbol s] ++ (d.lexemes ++ []) := fun _ => rfl
        refine (ho.blocked (by omega) hr).within _ hf (by simp) (fun _ _ _ _ => impossible_right hj) ?_
        exact fun _ l hl => by cases hl; cases hj <;> rfl
      · obtain ⟨d, rfl, hs⟩ := ho.read (by omega) hr
        rw [List.length_append] at hn
        have hb : Blocked (.more tier) after e := chainFrom_blocked (Nat.le_of_succ_le hroom) (by omega) hc
        have hf : ∀ more, (link s op hj d more).lexemes = (.symbol s :: d.lexemes) ++ (more.lexemes ++ []) :=
          fun more => by simp
        refine hb.within _ hf (by simp) (fun read l rest he hi => ?_) fun hnil => ?_
        · exact impossible_behind_right d hj (he ▸ hs) hi
        · rw [hnil, chainFrom_stop (by simp)] at hc
          cases hc
    · rw [chainFrom_stop hj] at h
      cases h

variable (tier) in
theorem chain_exact : Exact room (.chain tier) (Reader.chain tier.operator? room operand) where
  sound := chain_sound tier ho.sound room
  stops := fun {ahead e rest} hroom h => by
    rw [chain_eq] at h
    obtain ⟨⟨first, after⟩, hf, hc⟩ := bind_eq_ok h
    have hlen : after.length ≤ ahead.length := ho.sound.length_le hf
    exact chainFrom_stops ho (Nat.le_refl room) (by omega) (ho.stops hroom hf) hc
  blocked := fun {ahead e} hroom h => by
    rw [chain_eq] at h
    rcases bind_eq_error h with hf | ⟨⟨first, after⟩, hf, hc⟩
    · have hl : ∀ d, (chain d (done : Derivation (.more tier))).lexemes = d.lexemes := fun d => List.append_nil _
      exact (ho.blocked hroom hf).whole _ hl fun _ _ _ _ => impossible_first
    · obtain ⟨d, rfl, hs⟩ := ho.read hroom hf
      rw [List.length_append] at hroom
      have hb : Blocked (.more tier) after e := chainFrom_blocked ho (Nat.le_refl room) (by omega) hc
      have hl : ∀ more, (chain d more).lexemes = d.lexemes ++ (more.lexemes ++ []) := fun more => by simp
      refine hb.within _ hl (by simp) (fun read l rest he hi => ?_) fun hnil => ?_
      · exact impossible_behind_first d (he ▸ hs) hi
      · rw [hnil, chainFrom_stop (by simp)] at hc
        cases hc

end

theorem expression_exact {room : Nat} {operand : Reader Expr} (ho : Exact room .unary operand) :
    Exact room (.chain .bitOr) (Reader.expression room operand) := by
  have product : Exact room (.chain .product) _ := chain_exact .product ho
  have sum : Exact room (.chain .sum) _ := chain_exact .sum product
  have and : Exact room (.chain .bitAnd) _ := chain_exact .bitAnd sum
  exact chain_exact .bitOr and

/-! ## Arguments -/

section
variable {room : Nat} {inner : Reader Expr} (hi : Exact room (.chain .bitOr) inner)
include hi

theorem argument_blocked {ahead : List Lexeme} {e : GrammarError} (hroom : ahead.length ≤ room)
    (h : Reader.argument inner ahead = .error e) : Blocked (.phrase (.chain .bitOr)) ahead e := by
  unfold Reader.argument at h
  split at h
  · cases h
    exact .head begins_expression (impossible_start rfl) (by decide)
  · cases h
    exact .head begins_expression (impossible_start rfl) (by decide)
  · exact hi.blocked hroom h

theorem argumentsFrom_blocked : ∀ {n : Nat} {read : List Expr} {ahead : List Lexeme} {e : GrammarError}, n ≤ room →
    ahead.length ≤ n → Reader.argumentsFrom inner n read ahead = .error e → Blocked .moreArguments ahead e
  | 0, _, _, _, _, _, h => by simp [Reader.argumentsFrom] at h
  | n + 1, _, ahead, e, hroom, hn, h => by
    by_cases hc : ahead.head? = some (.symbol .comma)
    · obtain ⟨behind, rfl⟩ := List.head?_eq_some_iff.mp hc
      rw [List.length_cons] at hn
      rw [argumentsFrom_comma] at h
      rcases bind_eq_error h with ha | ⟨⟨next, after⟩, ha, hm⟩
      · have hf : ∀ d, (oneMore d noMore).lexemes = [.symbol .comma] ++ (d.lexemes ++ []) := fun _ => rfl
        refine (argument_blocked hi (by omega) ha).within _ hf (by simp) (fun _ _ _ _ => impossible_nextArgument) ?_
        exact fun _ l hl => by cases hl; rfl
      · obtain ⟨d, rfl, hs⟩ := hi.read (by omega) (argument_eq_ok ha)
        rw [List.length_append] at hn
        have hb : Blocked .moreArguments after e := argumentsFrom_blocked (Nat.le_of_succ_le hroom) (by omega) hm
        have hf : ∀ more, (oneMore d more).lexemes = (.symbol .comma :: d.lexemes) ++ (more.lexemes ++ []) :=
          fun more => by simp
        refine hb.within _ hf (by simp) (fun read l rest he hi => ?_) fun hnil => ?_
        · exact impossible_behind_argument d (he ▸ hs) hi
        · rw [hnil, argumentsFrom_stop (by simp)] at hm
          cases hm
    · rw [argumentsFrom_stop hc] at h
      cases h

theorem argumentsFrom_read : ∀ {n : Nat} {read : List Expr} {ahead : List Lexeme} {es : List Expr}
    {after : List Lexeme}, n ≤ room → ahead.length ≤ n → Reader.argumentsFrom inner n read ahead = .ok (es, after) →
    ∃ more : Derivation .moreArguments, ahead = more.lexemes ++ after ∧
      ∀ l tail, after = l :: tail → l ≠ .symbol .closing → Impossible .moreArguments more.lexemes l
  | 0, _, ahead, _, _, _, hn, h => by
    obtain rfl : ahead = [] := List.length_eq_zero_iff.mp (Nat.le_zero.mp hn)
    cases h
    exact ⟨.noMore, rfl, by simp⟩
  | n + 1, _, ahead, _, _, hroom, hn, h => by
    by_cases hc : ahead.head? = some (.symbol .comma)
    · obtain ⟨behind, rfl⟩ := List.head?_eq_some_iff.mp hc
      rw [List.length_cons] at hn
      rw [argumentsFrom_comma] at h
      obtain ⟨⟨next, behindNext⟩, ha, hm⟩ := bind_eq_ok h
      obtain ⟨d, rfl, hs⟩ := hi.read (by omega) (argument_eq_ok ha)
      rw [List.length_append] at hn
      obtain ⟨more, he, himp⟩ := argumentsFrom_read (Nat.le_of_succ_le hroom) (by dsimp only; omega) hm
      obtain rfl : behindNext = _ := he
      refine ⟨.oneMore d more, by simp, fun l tail ht hl => ?_⟩
      exact impossible_behind_argument d (ht ▸ hs) (himp l tail ht hl)
    · rw [argumentsFrom_stop hc] at h
      cases h
      refine ⟨.noMore, rfl, fun l tail ht hl => impossible_noMore ?_ hl⟩
      rintro rfl
      exact hc (by rw [ht]; rfl)

theorem arguments_blocked {ahead : List Lexeme} {e : GrammarError} (hroom : ahead.length ≤ room)
    (h : Reader.arguments room inner ahead = .error e) : Blocked .arguments ahead e := by
  by_cases hc : ahead.head? = some (.symbol .closing)
  · obtain ⟨behind, rfl⟩ := List.head?_eq_some_iff.mp hc
    cases h
  · rw [arguments_some hc] at h
    rcases bind_eq_error h with ha | ⟨⟨first, after⟩, ha, hm⟩
    · have hf : ∀ d, (someArguments d noMore).lexemes = d.lexemes := fun d => List.append_nil _
      refine (argument_blocked hi hroom ha).whole _ hf fun read l rest he => impossible_firstArgument ?_
      rw [he] at hc
      cases read <;> exact hc
    · obtain ⟨d, rfl, hs⟩ := hi.read hroom (argument_eq_ok ha)
      rw [List.length_append] at hroom
      have hb : Blocked .moreArguments after e := argumentsFrom_blocked hi (Nat.le_refl room) (by omega) hm
      have hf : ∀ more, (someArguments d more).lexemes = d.lexemes ++ (more.lexemes ++ []) := fun more => by simp
      refine hb.within _ hf (by simp) (fun read l rest he hi => ?_) fun hnil => ?_
      · exact impossible_behind_firstArgument d (he ▸ hs) hi
      · rw [hnil, argumentsFrom_stop (by simp)] at hm
        cases hm

theorem arguments_read {ahead : List Lexeme} (hroom : ahead.length ≤ room) {es : List Expr} {after : List Lexeme}
    (h : Reader.arguments room inner ahead = .ok (es, after)) :
    ∃ args : Derivation .arguments, ahead = args.lexemes ++ after ∧ (after = [] → CompletesOperand args.lexemes) ∧
      ∀ l tail, after = l :: tail → l ≠ .symbol .closing → Impossible .arguments args.lexemes l := by
  by_cases hc : ahead.head? = some (.symbol .closing)
  · obtain ⟨behind, rfl⟩ := List.head?_eq_some_iff.mp hc
    cases h
    refine ⟨.noArguments, rfl, by simp, ?_⟩
    rintro l tail ⟨⟩ hl
    exact absurd rfl hl
  · rw [arguments_some hc] at h
    obtain ⟨⟨first, behindFirst⟩, ha, hm⟩ := bind_eq_ok h
    obtain ⟨d, rfl, hs⟩ := hi.read hroom (argument_eq_ok ha)
    rw [List.length_append] at hroom
    obtain ⟨more, he, himp⟩ := argumentsFrom_read hi (Nat.le_refl room) (by dsimp only; omega) hm
    obtain rfl : behindFirst = _ := he
    refine ⟨.someArguments d more, by simp, fun _ => ?_, fun l tail ht hl => ?_⟩
    · exact completesOperand_moreArguments more (completesOperand_phrase d)
    · exact impossible_behind_firstArgument d (ht ▸ hs) (himp l tail ht hl)

end

/-! ## Primaries -/

theorem other_blocked {ahead : List Lexeme} (h : ∀ l ∈ ahead.head?, startsPrimary l = false) {e : GrammarError}
    (he : (Reader.unexpected ahead : Except GrammarError (Expr × List Lexeme)) = .error e) :
    Blocked (.phrase .primary) ahead e := by
  cases ahead with
  | nil =>
    cases he
    exact .finish begins_primary (by simp)
  | cons l rest =>
    obtain ⟨fault, hne, hu⟩ := unexpected_eq (Expr × List Lexeme) l rest
    rw [hu] at he
    cases he
    exact .head begins_primary (impossible_primary (h l rfl)) hne

section
variable {room : Nat} {inner : Reader Expr} (hi : Exact room (.chain .bitOr) inner)
include hi

theorem call_blocked {f : String} {behind : List Lexeme} {e : GrammarError} (hroom : behind.length ≤ room)
    (h : Reader.primary room inner (.name f :: .symbol .opening :: behind) = .error e) :
    Blocked (.phrase .primary) (.name f :: .symbol .opening :: behind) e := by
  rw [primary_call] at h
  rcases bind_eq_error h with ha | ⟨⟨es, after⟩, ha, hrest⟩
  · have hf : ∀ args, (call f args).lexemes =
        [.name f, .symbol .opening] ++ (args.lexemes ++ [.symbol .closing]) := fun _ => rfl
    refine (arguments_blocked hi hroom ha).within _ hf (by decide) (fun _ _ _ _ => impossible_call f) ?_
    exact fun _ l hl => by cases hl; rfl
  · obtain ⟨args, rfl, hcompletes, himp⟩ := arguments_read hi hroom ha
    rcases bind_eq_error hrest with hclose | ⟨_, _, hok⟩
    · have hf : ∀ args, (call f args).lexemes =
          [.name f] ++ .symbol .opening :: (args.lexemes ++ [.symbol .closing]) := fun _ => rfl
      exact blocked_close args _ hf rfl hcompletes (fun l tail ht hl => impossible_call f (himp l tail ht hl)) hclose
    · cases hok

theorem group_blocked {behind : List Lexeme} {e : GrammarError} (hroom : behind.length ≤ room)
    (h : Reader.primary room inner (.symbol .opening :: behind) = .error e) :
    Blocked (.phrase .primary) (.symbol .opening :: behind) e := by
  have hf : ∀ d, (group d).lexemes = [.symbol .opening] ++ (d.lexemes ++ [.symbol .closing]) := fun _ => rfl
  by_cases hc : behind.head? = some (.symbol .closing)
  · obtain ⟨tail, rfl⟩ := List.head?_eq_some_iff.mp hc
    cases h
    have hbegins : Begins (.phrase .primary) [.symbol .opening] := begins_expression.within group hf (by decide)
    exact .lexeme rfl hbegins impossible_empty (by decide)
  · rw [primary_group hc] at h
    rcases bind_eq_error h with hin | ⟨⟨e', after⟩, hin, hrest⟩
    · refine (hi.blocked hroom hin).within _ hf (by decide) (fun _ _ _ _ => impossible_inner) ?_
      exact fun _ l hl => by cases hl; rfl
    · obtain ⟨d, rfl, hs⟩ := hi.read hroom hin
      rcases bind_eq_error hrest with hclose | ⟨_, _, hok⟩
      · have hf' : ∀ d, (group d).lexemes = [] ++ .symbol .opening :: (d.lexemes ++ [.symbol .closing]) := fun _ => rfl
        refine blocked_close d _ hf' rfl (fun _ => completesOperand_phrase d) (fun l tail ht hl => ?_) hclose
        exact impossible_close d (ht ▸ hs) hl
      · cases hok

theorem primary_blocked : ∀ {ahead : List Lexeme} {e : GrammarError}, ahead.length ≤ room →
    Reader.primary room inner ahead = .error e → Blocked (.phrase .primary) ahead e
  | [], _, _, h => by
    rw [primary_other (by simp)] at h
    exact other_blocked (by simp) h
  | .number n :: behind, _, _, h => by cases h
  | .name n :: behind, _, hroom, h => by
    by_cases hc : behind.head? = some (.symbol .opening)
    · obtain ⟨tail, rfl⟩ := List.head?_eq_some_iff.mp hc
      simp only [List.length_cons] at hroom
      exact call_blocked hi (by omega) h
    · rw [primary_name hc] at h
      cases h
  | .symbol s :: behind, _, hroom, h => by
    rw [List.length_cons] at hroom
    by_cases hs : s = .opening
    · subst hs
      exact group_blocked hi (by omega) h
    · have hother : ∀ l ∈ (Lexeme.symbol s :: behind).head?, startsPrimary l = false := by
        simpa [startsPrimary] using hs
      rw [primary_other hother] at h
      exact other_blocked hother h

theorem primary_read {ahead : List Lexeme} {e : Expr} {after : List Lexeme}
    (h : Reader.primary room inner ahead = .ok (e, after)) :
    ∃ base : Derivation (.phrase .primary), ahead = base.lexemes ++ after ∧ Ends base after := by
  obtain ⟨base, rfl, hv⟩ := primary_sound hi.sound room _ _ _ h
  refine ⟨base, rfl, ?_⟩
  cases base with
  | number n => exact .inl (delimited_number n)
  | call f args => exact .inl (delimited_call f args.determined)
  | group inner => exact .inl (delimited_group inner.determined)
  | name n =>
    right
    intro s hs hhead
    -- a name before a parenthesis would have been read as a call
    obtain rfl : s = .opening := by simpa [Phrase.continuations] using hs
    obtain ⟨tail, rfl⟩ := List.head?_eq_some_iff.mp hhead
    rw [lexemes, List.singleton_append, primary_call] at h
    obtain ⟨_, _, hrest⟩ := bind_eq_ok h
    obtain ⟨_, _, hok⟩ := bind_eq_ok hrest
    subst hv
    cases hok

end

/-! ## Powers and signs -/

section
variable {room : Nat} {operand : Reader Expr} (ho : Exact room .unary operand)
include ho

theorem raise_stops {v : Expr} {after : List Lexeme} (hroom : after.length ≤ room) {e : Expr} {rest : List Lexeme}
    (h : raise operand (v, after) = .ok (e, rest)) : Phrase.power.Stops rest := by
  unfold raise at h
  split at h
  · cases h
  · rename_i he
    cases he
    rw [List.length_cons] at hroom
    obtain ⟨⟨exponent, last⟩, hx, hok⟩ := bind_eq_ok h
    cases hok
    exact (ho.stops (by omega) hx).mono (by decide)
  · rename_i hopening hcaret he
    cases he
    cases h
    intro s hs hhead
    obtain ⟨tail, rfl⟩ := List.head?_eq_some_iff.mp hhead
    rcases List.mem_cons.mp hs with rfl | hs
    · exact hopening tail rfl
    · obtain rfl : s = .caret := by simpa using hs
      exact hcaret tail rfl

theorem raise_blocked {base : Derivation (.phrase .primary)} {v : Expr} {after : List Lexeme}
    (hroom : after.length ≤ room) (hb : Ends base after) {e : GrammarError} (h : raise operand (v, after) = .error e) :
    Blocked (.phrase .power) (base.lexemes ++ after) e := by
  unfold raise at h
  split at h
  · rename_i he
    cases he
    cases h
    have hd : base.Delimited := hb.resolve_right fun hs => hs .opening (by decide) rfl
    exact .lexeme rfl (begins_lexemes (.plain base)) (impossible_callee base hd) (by decide)
  · rename_i behind he
    cases he
    rw [List.length_cons] at hroom
    rcases bind_eq_error h with hx | ⟨_, _, hok⟩
    · have hf : ∀ d, (raised base d).lexemes = (base.lexemes ++ [.symbol .caret]) ++ (d.lexemes ++ []) :=
        fun d => by simp
      rw [← List.singleton_append, ← List.append_assoc]
      refine (ho.blocked (by omega) hx).within _ hf (by simp) (fun read l _ _ hi => ?_) fun _ l hl => ?_
      · rw [List.append_assoc, List.singleton_append]
        exact impossible_exponent base hi
      · rw [List.getLast?_concat] at hl
        cases hl
        rfl
    · cases hok
  · cases h

theorem power_exact : Exact room .power (Reader.power room operand) where
  sound := power_sound ho.sound room
  stops := fun {ahead e rest} hroom h => by
    rw [power_eq] at h
    obtain ⟨⟨base, after⟩, hb, hr⟩ := bind_eq_ok h
    have hlen : after.length ≤ ahead.length := (primary_sound (expression_sound ho.sound room) room).length_le hb
    exact raise_stops ho (by omega) hr
  blocked := fun {ahead e} hroom h => by
    rw [power_eq] at h
    rcases bind_eq_error h with hb | ⟨⟨v, after⟩, hb, hr⟩
    · exact (primary_blocked (expression_exact ho) hroom hb).whole .plain (fun _ => rfl) fun _ _ _ _ => impossible_base
    · obtain ⟨base, rfl, hends⟩ := primary_read (expression_exact ho) hb
      rw [List.length_append] at hroom
      exact raise_blocked ho (by omega) hends hr

end

section
variable {room limit : Nat} (ho : Exact room .unary (Reader.operand room limit))
include ho

theorem operand_stops {ahead : List Lexeme} (hroom : ahead.length ≤ room) {e : Expr} {rest : List Lexeme}
    (h : Reader.operand room (limit + 1) ahead = .ok (e, rest)) : Phrase.unary.Stops rest := by
  rcases signed_or_not ahead with ⟨s, sign, behind, hs, rfl⟩ | hs
  · rw [List.length_cons] at hroom
    rw [operand_signed hs] at h
    obtain ⟨⟨inner, after⟩, hin, hok⟩ := bind_eq_ok h
    cases hok
    exact ho.stops (by omega) hin
  · rw [operand_unsigned hs] at h
    exact ((power_exact ho).stops hroom h).mono (by decide)

theorem operand_blocked {ahead : List Lexeme} (hroom : ahead.length ≤ room) {e : GrammarError}
    (h : Reader.operand room (limit + 1) ahead = .error e) : Blocked (.phrase .unary) ahead e := by
  rcases signed_or_not ahead with ⟨s, sign, behind, hs, rfl⟩ | hs
  · rw [List.length_cons] at hroom
    rw [operand_signed hs] at h
    rcases bind_eq_error h with hin | ⟨_, _, hok⟩
    · have hf : ∀ d, (signed s sign hs d).lexemes = [.symbol s] ++ (d.lexemes ++ []) := fun d => by simp
      refine (ho.blocked (by omega) hin).within _ hf (by simp) (fun _ _ _ _ => impossible_signed hs) ?_
      exact fun _ l hl => by cases hl; cases hs <;> rfl
    · cases hok
  · rw [operand_unsigned hs] at h
    refine ((power_exact ho).blocked hroom h).whole .unsigned (fun _ => rfl) fun read l rest he => ?_
    refine impossible_unsigned fun s sign hsign => ?_
    have := hs s sign hsign
    rw [he] at this
    cases read <;> exact this

end

theorem operand_exact (room : Nat) : ∀ limit, Exact room .unary (Reader.operand room limit)
  | 0 =>
    { sound := operand_sound room 0
      stops := fun _ h => by cases h
      blocked := fun _ h => by cases h; exact .deep _ }
  | limit + 1 =>
    { sound := operand_sound room (limit + 1)
      stops := fun hroom h => operand_stops (operand_exact room limit) hroom h
      blocked := fun hroom h => operand_blocked (operand_exact room limit) hroom h }

end Calculator.Grammar
