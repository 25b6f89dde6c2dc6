import Calculator.Proofs.Token.Placement
import Mathlib.Logic.Relation

/-!
# Blanks between lexemes

`Respaces` puts one blank in, at a place that lies in no token, or takes one out that stands beside an operator or at an
end of the text. `spells_of_respaced`: however often that is done, the lexemes stay the same.
-/

namespace Calculator

/-! ## Putting blanks in and taking them out -/

/-- A blank between two texts is next to an operator or at an end of the whole, other blanks apart. -/
inductive Spare : List Char → List Char → Prop
  | atStart {cs : List Char} (blank : ∀ c ∈ cs, isSpace c = true) (ds : List Char) : Spare cs ds
  | atEnd (cs : List Char) {ds : List Char} (blank : ∀ c ∈ ds, isSpace c = true) : Spare cs ds
  | behind (as : List Char) (s : Symbol) {bs : List Char} (blank : ∀ c ∈ bs, isSpace c = true) (ds : List Char) :
      Spare (as ++ s.char :: bs) ds
  | before (cs : List Char) {bs : List Char} (blank : ∀ c ∈ bs, isSpace c = true) (s : Symbol) (as : List Char) :
      Spare cs (bs ++ s.char :: as)

inductive Respaces : List Char → List Char → Prop
  | insert {cs ds : List Char} {c : Char} (space : isSpace c = true) {ts : List Token}
      (read : tokens (String.ofList (cs ++ ds)) = .ok ts)
      (outside : ∀ t ∈ ts, t.finish ≤ 1 + cs.length ∨ 1 + cs.length ≤ t.column) : Respaces (cs ++ ds) (cs ++ c :: ds)
  | delete {cs ds : List Char} {c : Char} (space : isSpace c = true) (spare : Spare cs ds) :
      Respaces (cs ++ c :: ds) (cs ++ ds)

/-! ## Blanks and lexemes -/

theorem not_isRunChar {c : Char} (h : isSpace c = true) : isRunChar c = false := by
  rw [← Bool.not_eq_true]
  intro hrun
  rw [not_isSpace hrun] at h
  cases h

theorem head?_not_isRunChar {cs : List Char} (h : ∀ c ∈ cs, isSpace c = true) :
    ∀ c ∈ cs.head?, isRunChar c = false :=
  fun c hc => not_isRunChar (h c (List.mem_of_mem_head? hc))

theorem Lexeme.not_isSpace_of_mem {l : Lexeme} (h : l.isWritten = true) : ∀ c ∈ l.chars, isSpace c = false := by
  intro c hc
  cases l with
  | number n =>
    rw [isWritten, Bool.and_eq_true] at h
    rw [chars_number] at hc
    exact not_isSpace (Numeral.isRunChar_chars h.1 c hc)
  | name s => exact not_isSpace (isRunChar_of_isNameChar (isNameChar_toList h c hc))
  | symbol s =>
    rw [chars_symbol, List.mem_singleton] at hc
    rw [hc]
    exact (symbol_char s).2.2.1

theorem Lexeme.before_blank {l : Lexeme} (h : l.isWritten = true) {c : Char} (hc : isSpace c = true)
    {cs ds tail : List Char} (he : l.chars ++ tail = cs ++ c :: ds) :
    ∃ as, cs = l.chars ++ as ∧ tail = as ++ c :: ds := by
  rcases List.append_eq_append_iff.mp he with ⟨as, hcs, htail⟩ | ⟨as, hl, hds⟩
  · exact ⟨as, hcs, htail⟩
  cases as with
  | nil => exact ⟨[], by rw [hl, List.append_nil, List.append_nil], hds.symm⟩
  | cons d as =>
    obtain rfl : c = d := List.head_eq_of_cons_eq hds
    have := Lexeme.not_isSpace_of_mem h c (by rw [hl]; simp)
    rw [hc] at this
    cases this

theorem Lexeme.before_place {l : Lexeme} {cs ds tail : List Char} (hlen : l.chars.length ≤ cs.length)
    (he : l.chars ++ tail = cs ++ ds) : ∃ as, cs = l.chars ++ as ∧ tail = as ++ ds := by
  rcases List.append_eq_append_iff.mp he with h | ⟨as, hl, hds⟩
  · exact h
  · rw [hl, List.length_append] at hlen
    obtain rfl : as = [] := List.length_eq_zero_iff.mp (by omega)
    rw [List.append_nil] at hl
    exact ⟨[], by rw [hl, List.append_nil], hds.symm⟩

/-! ## Texts with a blank more -/

namespace Spells

theorem blanks {bs : List Char} (hb : ∀ b ∈ bs, isSpace b = true) {cs : List Char} {ls : List Lexeme}
    (h : Spells cs ls) : Spells (bs ++ cs) ls := by
  induction bs with
  | nil => exact h
  | cons b bs ih => exact blank (hb b (by simp)) (ih fun b' hb' => hb b' (by simp [hb']))

theorem insert {column : Nat} {text : List Char} {ts : List Token} (h : Segmentation column text ts) {c : Char}
    (hc : isSpace c = true) (ds : List Char) : ∀ {cs : List Char}, text = cs ++ ds →
    (∀ t ∈ ts, t.finish ≤ column + cs.length ∨ column + cs.length ≤ t.column) →
    Spells (cs ++ c :: ds) (ts.map (·.lexeme)) := by
  induction h with
  | done column =>
    intro cs he _
    obtain ⟨rfl, rfl⟩ := List.append_eq_nil_iff.mp he.symm
    exact blank hc nil
  | @blank column b rest ts space hrest ih =>
    intro cs he hout
    cases cs with
    | nil =>
      rw [List.nil_append] at he
      subst he
      exact blank hc (of_segmentation (.blank space hrest))
    | cons b' cs =>
      rw [List.cons_append, List.cons.injEq] at he
      obtain ⟨rfl, he⟩ := he
      have hcolumn : column + (b :: cs).length = column + 1 + cs.length := by rw [List.length_cons]; omega
      rw [hcolumn] at hout
      exact blank space (ih he hout)
  | @lexeme column l tail ts written stops hrest ih =>
    intro cs he hout
    rcases hout _ (List.mem_cons_self ..) with hbehind | hbefore
    · rw [Token.finish] at hbehind
      obtain ⟨as, rfl, rfl⟩ := Lexeme.before_place (by simpa using hbehind) he
      have hcolumn : column + (l.chars ++ as).length = column + l.chars.length + as.length := by
        rw [List.length_append]; omega
      rw [hcolumn] at hout
      rw [List.append_assoc]
      refine lexeme written ?_ (ih rfl fun t ht => hout t (List.mem_cons_of_mem _ ht))
      exact Lexeme.stopsAt_append stops.left fun d hd => by cases hd; exact not_isRunChar hc
    · obtain rfl : cs = [] := List.length_eq_zero_iff.mp (by simp only at hbefore; omega)
      rw [List.nil_append] at he
      subst he
      exact blank hc (of_segmentation (.lexeme l written stops hrest))

/-! ## Texts with a blank less -/

theorem cut_blank {column : Nat} {text : List Char} {ts : List Token} (h : Segmentation column text ts) {c : Char}
    (hc : isSpace c = true) (ds : List Char) : ∀ {cs : List Char}, text = cs ++ c :: ds →
    ∃ ms ns, ts.map (·.lexeme) = ms ++ ns ∧ Spells cs ms ∧ Spells ds ns := by
  induction h with
  | done column =>
    intro cs he
    exact absurd he.symm (by simp)
  | @blank column b rest ts space hrest ih =>
    intro cs he
    cases cs with
    | nil =>
      rw [List.nil_append, List.cons.injEq] at he
      obtain ⟨-, rfl⟩ := he
      exact ⟨[], _, rfl, nil, of_segmentation hrest⟩
    | cons b' cs =>
      rw [List.cons_append, List.cons.injEq] at he
      obtain ⟨rfl, he⟩ := he
      obtain ⟨ms, ns, hls, hleft, hright⟩ := ih he
      exact ⟨ms, ns, hls, hleft.blank space, hright⟩
  | @lexeme column l tail ts written stops _ ih =>
    intro cs he
    obtain ⟨as, rfl, rfl⟩ := Lexeme.before_blank written hc he
    obtain ⟨ms, ns, hls, hleft, hright⟩ := ih rfl
    exact ⟨l :: ms, ns, by rw [List.map_cons, hls]; rfl, hleft.lexeme written stops.left, hright⟩

section
variable {cs ds : List Char} {c : Char} (hc : isSpace c = true) {ls : List Lexeme} (h : Spells (cs ++ c :: ds) ls)
include hc h

theorem cut_at_blank : ∃ ms ns, ls = ms ++ ns ∧ Spells cs ms ∧ Spells ds ns := by
  obtain ⟨ts, hts, rfl⟩ := h 1
  exact cut_blank hts hc ds rfl

theorem delete_first (hb : ∀ b ∈ cs, isSpace b = true) : Spells (cs ++ ds) ls := by
  obtain ⟨ms, ns, rfl, hleft, hright⟩ := cut_at_blank hc h
  have hnone : Spells cs [] := by simpa using blanks hb nil
  rw [hleft.unique hnone]
  exact blanks hb hright

theorem delete_last (hb : ∀ b ∈ ds, isSpace b = true) : Spells (cs ++ ds) ls := by
  obtain ⟨ms, ns, rfl, hleft, hright⟩ := cut_at_blank hc h
  exact hleft.append hright (head?_not_isRunChar hb)

/-- What lies beyond the operator is a text of its own, and the blank is at the end of what lies on this side of it. -/
theorem delete (spare : Spare cs ds) : Spells (cs ++ ds) ls := by
  cases spare with
  | atStart hb => exact delete_first hc h hb
  | atEnd _ hb => exact delete_last hc h hb
  | @behind as s bs hb =>
    rw [List.append_assoc, List.cons_append] at h ⊢
    obtain ⟨ms, ns, rfl, hleft, hright⟩ := h.cut
    exact hleft.append_symbol s (delete_first hc hright hb)
  | @before _ bs hb s as =>
    rw [← List.cons_append, ← List.append_assoc] at h
    obtain ⟨ms, ns, rfl, hleft, hright⟩ := h.cut
    rw [← List.append_assoc]
    exact (delete_last hc hleft hb).append_symbol s hright

end

end Spells

/-! ## Any number of changes -/

theorem Respaces.spells {cs ds : List Char} (h : Respaces cs ds) {ls : List Lexeme} (hls : Spells cs ls) :
    Spells ds ls := by
  cases h with
  | @insert as bs c space ts read outside =>
    rw [tokens_eq_ok_iff, String.toList_ofList] at read
    rw [hls.unique (.of_segmentation read)]
    exact .insert read space bs rfl outside
  | delete space spare => exact hls.delete space spare

theorem spells_of_respaced {cs ds : List Char} (h : Relation.ReflTransGen Respaces cs ds) {ls : List Lexeme}
    (hls : Spells cs ls) : Spells ds ls := by
  induction h with
  | refl => exact hls
  | tail _ step ih => exact step.spells ih

theorem tokens_of_respaced {s s' : String} {ts : List Token} (ht : tokens s = .ok ts)
    (h : Relation.ReflTransGen Respaces s.toList s'.toList) :
    ∃ ts', tokens s' = .ok ts' ∧ ts'.map (·.lexeme) = ts.map (·.lexeme) := by
  obtain ⟨ts', hseg, hls⟩ := spells_of_respaced h (.of_segmentation (tokens_eq_ok_iff.mp ht)) 1
  exact ⟨ts', tokens_eq_ok_iff.mpr hseg, hls⟩

end Calculator
