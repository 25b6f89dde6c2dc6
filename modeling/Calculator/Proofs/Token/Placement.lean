import Calculator.Proofs.Token.Segmentation

/-!
# Where tokens stand

`Segmentation.covers`: the tokens of a text are the slices at their columns, each ends before the next one begins, and
only blanks lie outside of them.
-/

namespace Calculator

def Token.finish (t : Token) : Nat := t.column + t.lexeme.chars.length

def Token.Covers (t : Token) (column : Nat) : Prop := t.column ≤ column ∧ column < t.finish

/-- Tokens in a text that begins at a column. -/
structure Covers (column : Nat) (cs : List Char) (ts : List Token) : Prop where
  inside : ∀ t ∈ ts, column ≤ t.column ∧ t.column < t.finish ∧ t.finish ≤ column + cs.length
  slice : ∀ t ∈ ts, (cs.drop (t.column - column)).take t.lexeme.chars.length = t.lexeme.chars
  ordered : ts.Pairwise fun t u => t.finish ≤ u.column
  between : ∀ i c, cs[i]? = some c → isSpace c = true ∨ ∃ t ∈ ts, t.Covers (column + i)

theorem covers_nil (column : Nat) : Covers column [] [] where
  inside := by simp
  slice := by simp
  ordered := .nil
  between := by simp

theorem Covers.blank {column : Nat} {c : Char} {cs : List Char} {ts : List Token} (space : isSpace c = true)
    (h : Covers (column + 1) cs ts) : Covers column (c :: cs) ts where
  inside t ht := by
    have := h.inside t ht
    simp only [List.length_cons]
    omega
  slice t ht := by
    have hin := (h.inside t ht).1
    have hcol : t.column - column = t.column - (column + 1) + 1 := by omega
    rw [hcol, List.drop_succ_cons]
    exact h.slice t ht
  ordered := h.ordered
  between i d hd := by
    cases i with
    | zero =>
      simp only [List.getElem?_cons_zero, Option.some.injEq] at hd
      exact .inl (hd ▸ space)
    | succ i =>
      rw [show column + (i + 1) = column + 1 + i by omega]
      exact h.between i d (by simpa using hd)

theorem Covers.lexeme {column : Nat} (l : Lexeme) {cs : List Char} {ts : List Token} (ne : l.chars ≠ [])
    (h : Covers (column + l.chars.length) cs ts) : Covers column (l.chars ++ cs) (⟨l, column⟩ :: ts) where
  inside t ht := by
    have hpos := List.length_pos_iff.mpr ne
    simp only [List.length_append]
    rcases List.mem_cons.mp ht with rfl | ht
    · simp only [Token.finish]
      omega
    · have := h.inside t ht
      omega
  slice t ht := by
    rcases List.mem_cons.mp ht with rfl | ht
    · simp
    · have hin := (h.inside t ht).1
      have hcol : t.column - column = l.chars.length + (t.column - (column + l.chars.length)) := by omega
      rw [hcol, List.drop_length_add_append]
      exact h.slice t ht
  ordered := List.pairwise_cons.mpr ⟨fun t ht => (h.inside t ht).1, h.ordered⟩
  between i c hc := by
    by_cases hi : i < l.chars.length
    · exact .inr ⟨⟨l, column⟩, by simp, Nat.le_add_right _ _, by simpa [Token.finish] using hi⟩
    · obtain ⟨k, rfl⟩ : ∃ k, i = l.chars.length + k := ⟨i - l.chars.length, by omega⟩
      rw [List.getElem?_append_right (Nat.le_add_right _ _), Nat.add_sub_cancel_left] at hc
      rcases h.between k c hc with hs | ⟨t, ht, hcov⟩
      · exact .inl hs
      · rw [Nat.add_assoc] at hcov
        exact .inr ⟨t, List.mem_cons_of_mem _ ht, hcov⟩

theorem Segmentation.covers {column : Nat} {cs : List Char} {ts : List Token} (h : Segmentation column cs ts) :
    Covers column cs ts := by
  induction h with
  | done column => exact covers_nil column
  | blank space _ ih => exact ih.blank space
  | lexeme l written _ _ ih =>
    obtain ⟨c, ds, hc, -⟩ := Lexeme.chars_eq_cons written
    exact ih.lexeme l (by simp [hc])

end Calculator
