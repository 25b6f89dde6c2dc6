import Calculator.Proofs.Expr.Grammatical

/-!
# Written text is stable

`source_fixed`: what is written for a tree is read as a tree for which the same text is written, character by
character. The tree that a text shows has its parentheses as groups and its negative numbers as signs, and neither is
written in another way than what it stands for.
-/

namespace Calculator.Expr
open Grammar

/-! ## Operands as they are shown -/

theorem enclose_of_le {e : Expr} {asked : Level} (h : asked ≤ e.level) (text : String) : e.enclose asked text = text :=
  if_neg (Nat.not_lt.mpr h)

theorem level_written (e : Expr) : e.written.level = e.level := by
  cases e with
  | number x =>
    rw [written]
    split
    · rename_i hx
      rw [level, level, if_pos hx]
    · rfl
  | _ => rfl

theorem le_level_bracketed {e : Expr} {asked : Level} (h : asked ≤ Level.primary) :
    asked ≤ (e.bracketed asked e.written).level := by
  unfold bracketed
  split
  · exact h
  · rename_i hlt
    rw [level_written]
    exact Nat.not_lt.mp hlt

/-- An operand of a sign shows nothing that the sign would put into parentheses again. -/
theorem signedLevel_le_bracketed (e : Expr) :
    (e.bracketed e.signedLevel e.written).signedLevel ≤ (e.bracketed e.signedLevel e.written).level := by
  obtain ⟨hsign, hprimary⟩ := e.signedLevel_bounds
  refine Nat.le_trans ?_ (le_level_bracketed hprimary)
  unfold bracketed
  split
  · exact hsign
  · cases e with
    | number x => exact (signedLevel_bounds _).2
    | _ => exact Nat.le_refl _

theorem source_bracketed {e : Expr} {text : String} (h : e.written.source = .ok text) (asked : Level) :
    (e.bracketed asked e.written).source = .ok (e.enclose asked text) := by
  unfold bracketed enclose
  split
  · rw [source, h]
    rfl
  · exact h

/-! ## Trees as they are shown -/

theorem source_written_number {x : Binary64} {text : String} (h : (number x).source = .ok text) :
    (number x).written.source = .ok text := by
  cases x with
  | finite negative ordinal =>
    cases negative with
    | false => exact h
    | true =>
      rw [source, numberSource_finite] at h
      obtain rfl := Except.ok.inj h
      have hmagnitude := numberSource_finite false ordinal
      rw [Binary64.signText, if_neg Bool.false_ne_true, String.empty_append] at hmagnitude
      show (signed .minus (number (.finite false ordinal))).source = _
      rw [source, source, hmagnitude]
      rfl
  | _ => cases h

mutual

theorem source_written : ∀ {e : Expr} {text : String}, e.source = .ok text → e.written.source = .ok text
  | number _, _, h => source_written_number h
  | name _, _, h => h
  | signed s e, text, h => by
    obtain ⟨inner, hi, ht⟩ := bind_eq_ok h
    cases ht
    rw [written, source, source_bracketed (source_written hi)]
    exact congrArg (fun shown => Except.ok (s.symbol ++ shown)) (enclose_of_le (signedLevel_le_bracketed e) _)
  | binary op l r, text, h => by
    obtain ⟨left, hl, h'⟩ := bind_eq_ok h
    obtain ⟨right, hr, ht⟩ := bind_eq_ok h'
    cases ht
    obtain ⟨hleft, hright⟩ := operandLevels_le_primary op
    rw [written, source, source_bracketed (source_written hl), source_bracketed (source_written hr)]
    show Except.ok (_ ++ " " ++ op.symbol ++ " " ++ _) = _
    rw [enclose_of_le (le_level_bracketed hleft), enclose_of_le (le_level_bracketed hright)]
  | group e, text, h => by
    obtain ⟨inner, hi, ht⟩ := bind_eq_ok h
    cases ht
    rw [written, source, source_written hi]
    rfl
  | call f args, text, h => by
    obtain ⟨texts, hs, ht⟩ := bind_eq_ok h
    cases ht
    rw [written, source, sources_written hs]
    rfl
  | foreign _, _, h => h

theorem sources_written : ∀ {es : List Expr} {texts : List String}, sources es = .ok texts →
    sources (allWritten es) = .ok texts
  | [], _, h => h
  | e :: es, texts, h => by
    obtain ⟨text, he, h'⟩ := bind_eq_ok h
    obtain ⟨rest, hes, ht⟩ := bind_eq_ok h'
    cases ht
    rw [allWritten, sources, source_written he, sources_written hes]
    rfl

end

theorem source_fixed {t : Expr} (h : t.IsWritable) :
    ∃ text t', t.source = .ok text ∧ ReadsAs text t' ∧ t'.source = .ok text := by
  obtain ⟨text, hs, hr⟩ := readsAs_source h
  exact ⟨text, t.written, hs, hr, source_written hs⟩

theorem source_fixed_negative_zeros :
    (binary .pow (number (.finite true 0)) (signed .minus (number (.finite true 0)))).IsWritable ∧
      ∃ t', ReadsAs "(-0) ^ -(-0)" t' ∧ t'.source = .ok "(-0) ^ -(-0)" := by
  have h : (binary .pow (number (.finite true 0)) (signed .minus (number (.finite true 0)))).IsWritable := by decide
  have hzero : numberSource (.finite true 0) = .ok "-0" :=
    (numberSource_finite true 0).trans (congrArg Except.ok (by decide +kernel))
  have htree : (binary .pow (number (.finite true 0)) (signed .minus (number (.finite true 0)))).source =
      .ok "(-0) ^ -(-0)" := by
    simp only [source, hzero]
    rfl
  obtain ⟨text, t', htext, hreads, hsource⟩ := source_fixed h
  obtain rfl : "(-0) ^ -(-0)" = text := Except.ok.inj (htree.symm.trans htext)
  exact ⟨h, t', hreads, hsource⟩

end Calculator.Expr
