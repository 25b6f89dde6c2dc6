import Calculator.Proofs.Grammar.Completeness
import Calculator.Proofs.Grammar.Depth
import Calculator.Proofs.Token.Segmentation

/-!
# Parsing is derivation

`parse_iff_derivation`: unless its nesting exceeds the limit, a text is read as a tree exactly if its tokens
have a derivation that builds the tree, and no tokens have two derivations. `ReadsAs` states what a text
means apart from the limit.
-/

namespace Calculator

/-- The reader gives up for depth alone. No limit above the length of the text can do that. -/
def Expr.NestsTooDeep (limit : Nat) (source : String) : Prop :=
  limit ≤ source.length ∧ ∃ column, Expr.parseWithin limit source = .error (.grammar .tooDeep column)

/-- A text stands for a tree at every limit that admits its nesting. -/
def Expr.ReadsAs (source : String) (t : Expr) : Prop :=
  ∀ limit, Expr.parseWithin limit source = .ok t ∨ Expr.NestsTooDeep limit source

namespace Grammar
open Grammar.Derivation

/-! ## Lists of lexemes -/

theorem Derivation.lexemes_ne_nil {p : Phrase} (d : Derivation (.phrase p)) : d.lexemes ≠ [] := by
  intro h
  obtain ⟨l, rest, hl, -⟩ := head_phrase d
  rw [h] at hl
  cases hl

theorem ofLexemes_sound {limit : Nat} {ls : List Lexeme} {t : Expr} (h : Expr.ofLexemes limit ls = .ok t) :
    ∃ d : Expression, d.lexemes = ls ∧ d.value = t := by
  unfold Expr.ofLexemes at h
  split at h
  · cases h
  · simp only at h
    split at h
    · cases h
    · rename_i e he
      cases h
      obtain ⟨d, hl, hv⟩ := expression_sound (operand_sound ls.length limit) ls.length _ _ _ he
      rw [List.append_nil] at hl
      exact ⟨d, hl, hv⟩
    · unfold Reader.unexpected at h
      split at h <;> cases h

theorem ofLexemes_complete (d : Expression) {limit : Nat} (h : d.lexemes.length ≤ limit) :
    Expr.ofLexemes limit d.lexemes = .ok d.value := by
  have hd := complete d (Nat.le_refl _) (Nat.le_trans d.depth_le_length.1 h) [] (Phrase.stops_nil _)
  rw [List.append_nil] at hd
  unfold Expr.ofLexemes
  split
  · rename_i hn
    exact absurd hn d.lexemes_ne_nil
  · simp only [Phrase.reader] at hd
    simp only [hd]

/-! ## Texts -/

theorem parseWithin_eq_ok_iff {limit : Nat} {source : String} {t : Expr} : Expr.parseWithin limit source = .ok t ↔
    ∃ ts, tokens source = .ok ts ∧ Expr.ofLexemes limit (ts.map (·.lexeme)) = .ok t := by
  unfold Expr.parseWithin
  cases tokens source with
  | error e => simp
  | ok ts => cases ho : Expr.ofLexemes limit (ts.map (·.lexeme)) <;> simp [ho]

theorem parseWithin_eq_grammar_iff {limit : Nat} {source : String} {fault : GrammarFault} {column : Nat} :
    Expr.parseWithin limit source = .error (.grammar fault column) ↔ ∃ ts k, tokens source = .ok ts ∧
      Expr.ofLexemes limit (ts.map (·.lexeme)) = .error ⟨fault, k⟩ ∧ columnAhead ts (endColumn source) k = column := by
  unfold Expr.parseWithin
  cases tokens source with
  | error e => simp
  | ok ts =>
    cases ho : Expr.ofLexemes limit (ts.map (·.lexeme)) with
    | ok t => simp [ho]
    | error e =>
      obtain ⟨fault', k⟩ := e
      simp [ho, and_assoc]

theorem length_tokens_le {source : String} {ts : List Token} (h : tokens source = .ok ts) :
    ts.length ≤ source.length := by
  rw [← String.length_toList]
  exact (tokens_eq_ok_iff.mp h).length_le

theorem parseWithin_agrees {limit limit' : Nat} (h : limit ≤ limit') (source : String) :
    Expr.NestsTooDeep limit source ∨ Expr.parseWithin limit source = Expr.parseWithin limit' source := by
  unfold Expr.NestsTooDeep Expr.parseWithin
  cases ht : tokens source with
  | error e => exact .inr rfl
  | ok ts =>
    rcases ofLexemes_agrees h (ts.map (·.lexeme)) with ⟨hd, k, hk⟩ | ⟨-, he⟩
    · rw [List.length_map] at hd
      refine .inl ⟨Nat.le_trans hd (length_tokens_le ht), columnAhead ts (endColumn source) k, ?_⟩
      simp only [hk]
    · exact .inr (by simp only [he])

theorem exists_derivation {limit : Nat} {source : String} {t : Expr} (h : Expr.parseWithin limit source = .ok t) :
    ∃ ts, tokens source = .ok ts ∧ ∃ d : Expression, d.lexemes = ts.map (·.lexeme) ∧ d.value = t := by
  obtain ⟨ts, ht, ho⟩ := parseWithin_eq_ok_iff.mp h
  exact ⟨ts, ht, ofLexemes_sound ho⟩

theorem readsAs_of_derivation {source : String} {ts : List Token} (ht : tokens source = .ok ts) (d : Expression)
    (hd : d.lexemes = ts.map (·.lexeme)) : Expr.ReadsAs source d.value := by
  intro limit
  -- a limit as large as the text is always enough, and smaller ones agree with it
  have hok : Expr.parseWithin (max limit d.lexemes.length) source = .ok d.value := by
    refine parseWithin_eq_ok_iff.mpr ⟨ts, ht, ?_⟩
    rw [← hd]
    exact ofLexemes_complete d (Nat.le_max_right _ _)
  rcases parseWithin_agrees (Nat.le_max_left limit d.lexemes.length) source with hdeep | he
  · exact .inr hdeep
  · exact .inl (by rw [he, hok])

theorem readsAs_of_spells {source : String} (d : Expression) (h : Spells source.toList d.lexemes) :
    Expr.ReadsAs source d.value := by
  obtain ⟨ts, hseg, hls⟩ := h 1
  exact readsAs_of_derivation (tokens_eq_ok_iff.mpr hseg) d hls.symm

theorem parse_iff_derivation (limit : Nat) (source : String) :
    (∀ d d' : Expression, d.lexemes = d'.lexemes → d = d') ∧
      (Expr.NestsTooDeep limit source ∨ ∀ t, Expr.parseWithin limit source = .ok t ↔
        ∃ ts, tokens source = .ok ts ∧ ∃ d : Expression, d.lexemes = ts.map (·.lexeme) ∧ d.value = t) := by
  refine ⟨fun _ _ => lexemes_injective, ?_⟩
  by_cases hdeep : Expr.NestsTooDeep limit source
  · exact .inl hdeep
  refine .inr fun t => ⟨exists_derivation, ?_⟩
  rintro ⟨ts, ht, d, hd, rfl⟩
  exact (readsAs_of_derivation ht d hd limit).resolve_right hdeep

end Grammar
end Calculator
