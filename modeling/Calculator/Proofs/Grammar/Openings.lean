import Calculator.Proofs.Grammar.Derivation

/-!
# Open parentheses and completed operands

`openings_lexemes`: a derivation leaves no parenthesis open. `completesOperand_phrase`: behind a phrase an operand has
just been completed, which the last lexeme shows.
-/

namespace Calculator.Grammar

/-! ## Open parentheses -/

/-- The places of the parentheses left open by lexemes that begin at a place, the innermost first. `opened` holds
those that were open before. -/
def openings (place : Nat) (opened : List Nat) : List Lexeme → List Nat
  | [] => opened
  | .symbol .opening :: rest => openings (place + 1) (place :: opened) rest
  | .symbol .closing :: rest => openings (place + 1) opened.tail rest
  | _ :: rest => openings (place + 1) opened rest

theorem openings_append : ∀ (ls ms : List Lexeme) (place : Nat) (opened : List Nat),
    openings place opened (ls ++ ms) = openings (place + ls.length) (openings place opened ls) ms
  | [], _, _, _ => rfl
  | l :: ls, ms, place, opened => by
    have hplace : place + (l :: ls).length = place + 1 + ls.length := by rw [List.length_cons]; omega
    rw [hplace]
    cases l with
    | symbol s => cases s <;> exact openings_append ls ms (place + 1) _
    | number n => exact openings_append ls ms (place + 1) _
    | name n => exact openings_append ls ms (place + 1) _

theorem openings_joins {tier : Tier} {s : Symbol} {op : Operator} (h : Joins tier s op) (place : Nat)
    (opened : List Nat) (rest : List Lexeme) :
    openings place opened (.symbol s :: rest) = openings (place + 1) opened rest := by
  cases h <;> rfl

theorem openings_signs {s : Symbol} {sign : Sign} (h : Signs s sign) (place : Nat) (opened : List Nat)
    (rest : List Lexeme) : openings place opened (.symbol s :: rest) = openings (place + 1) opened rest := by
  cases h <;> rfl

theorem openings_lexemes {nt : Nonterminal} (d : Derivation nt) : ∀ (place : Nat) (opened : List Nat),
    openings place opened d.lexemes = opened := by
  induction d with
  | chain first more hf hm =>
    intro place opened
    rw [Derivation.lexemes, openings_append, hf, hm]
  | link s op joins right more hr hm =>
    intro place opened
    rw [Derivation.lexemes, openings_joins joins, openings_append, hr, hm]
  | signed s sign signs operand ho =>
    intro place opened
    rw [Derivation.lexemes, openings_signs signs, ho]
  | unsigned power hp => exact hp
  | plain base hb => exact hb
  | raised base exponent hb he =>
    intro place opened
    rw [Derivation.lexemes, openings_append, hb, openings, he]
    · simp
    · simp
  | call f args ha =>
    intro place opened
    simp only [Derivation.lexemes, openings, openings_append, ha, List.tail_cons]
  | group inner hi =>
    intro place opened
    simp only [Derivation.lexemes, openings, openings_append, hi, List.tail_cons]
  | someArguments first more hf hm =>
    intro place opened
    rw [Derivation.lexemes, openings_append, hf, hm]
  | oneMore arg more ha hm =>
    intro place opened
    simp only [Derivation.lexemes, openings, openings_append, ha, hm]
  | _ => exact fun _ _ => rfl

/-! ## Completed operands -/

/-- A number, name, call or group ends here. -/
def CompletesOperand (ls : List Lexeme) : Prop := ∃ d : Derivation (.phrase .primary), d.lexemes <:+ ls

def endsOperand : Lexeme → Bool
  | .number _ => true
  | .name _ => true
  | .symbol s => s == .closing

theorem getLast?_primary (d : Derivation (.phrase .primary)) :
    ∃ l, d.lexemes.getLast? = some l ∧ endsOperand l = true := by
  cases d with
  | number n => exact ⟨_, rfl, rfl⟩
  | name n => exact ⟨_, rfl, rfl⟩
  | call f args =>
    refine ⟨.symbol .closing, ?_, rfl⟩
    rw [Derivation.lexemes, ← List.cons_append, ← List.cons_append, List.getLast?_append]
    rfl
  | group inner =>
    refine ⟨.symbol .closing, ?_, rfl⟩
    rw [Derivation.lexemes, ← List.cons_append, List.getLast?_append]
    rfl

theorem not_completesOperand {ls : List Lexeme} (h : ∀ l ∈ ls.getLast?, endsOperand l = false) :
    ¬ CompletesOperand ls := by
  rintro ⟨d, before, rfl⟩
  obtain ⟨l, hl, he⟩ := getLast?_primary d
  have := h l (by simp [List.getLast?_append, hl])
  rw [he] at this
  cases this

theorem CompletesOperand.append_left {ls : List Lexeme} (h : CompletesOperand ls) (before : List Lexeme) :
    CompletesOperand (before ++ ls) := by
  obtain ⟨d, hd⟩ := h
  exact ⟨d, hd.trans (List.suffix_append before ls)⟩

mutual

theorem completesOperand_phrase : ∀ {p : Phrase} (d : Derivation (.phrase p)), CompletesOperand d.lexemes
  | _, .chain first more => completesOperand_more more (completesOperand_phrase first)
  | _, .signed s _ _ operand => (completesOperand_phrase operand).append_left [.symbol s]
  | _, .unsigned power => completesOperand_phrase power
  | _, .plain base => ⟨base, List.suffix_refl _⟩
  | _, .raised base exponent => by
    have := (completesOperand_phrase exponent).append_left (base.lexemes ++ [.symbol .caret])
    simpa using this
  | .primary, d => ⟨d, List.suffix_refl _⟩

theorem completesOperand_more : ∀ {tier : Tier} (more : Derivation (.more tier)) {ls : List Lexeme},
    CompletesOperand ls → CompletesOperand (ls ++ more.lexemes)
  | _, .done, ls, h => by simpa using h
  | _, .link s op joins right more, ls, _ => by
    have := (completesOperand_more more (completesOperand_phrase right)).append_left (ls ++ [.symbol s])
    simpa using this

end

theorem completesOperand_moreArguments : ∀ (more : Derivation .moreArguments) {ls : List Lexeme},
    CompletesOperand ls → CompletesOperand (ls ++ more.lexemes)
  | .noMore, ls, h => by simpa using h
  | .oneMore arg more, ls, _ => by
    have := (completesOperand_moreArguments more (completesOperand_phrase arg)).append_left (ls ++ [.symbol .comma])
    simpa using this

end Calculator.Grammar
