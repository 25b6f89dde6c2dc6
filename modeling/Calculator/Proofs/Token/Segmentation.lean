import Calculator.Proofs.Token.Lexeme

/-!
# Splitting a text into lexemes

`tokens_eq_ok_iff`: the tokens of a text are its segmentation into blanks and lexemes, each lexeme as
long as it can be. `Spells.append`: texts that do not run into each other are read one after the other.
`Spells.cut`: a text with a symbol in it is read as the texts before and behind.
-/

namespace Calculator

/-- How a text that begins at a column splits into tokens. -/
inductive Segmentation : Nat → List Char → List Token → Prop
  | done (column : Nat) : Segmentation column [] []
  | blank {column : Nat} {c : Char} {cs : List Char} {ts : List Token} (space : isSpace c = true)
      (rest : Segmentation (column + 1) cs ts) : Segmentation column (c :: cs) ts
  | lexeme {column : Nat} (l : Lexeme) {cs : List Char} {ts : List Token} (written : l.isWritten = true)
      (stops : l.StopsAt cs) (rest : Segmentation (column + l.chars.length) cs ts) :
      Segmentation column (l.chars ++ cs) (⟨l, column⟩ :: ts)

/-! ## Soundness and completeness of the lexer -/

theorem tokensFrom_covered (read : List Token) (rest : List Char) : ∀ (cs : List Char) (column : Nat),
    tokensFrom read column cs.length (cs ++ rest) = tokensFrom read (column + cs.length) 0 rest
  | [], column => rfl
  | c :: cs, column => by
    rw [List.cons_append, List.length_cons, tokensFrom, tokensFrom_covered read rest cs (column + 1)]
    congr 1
    omega

theorem tokensFrom_lexeme {l : Lexeme} (h : l.isWritten = true) {rest : List Char} (hs : l.StopsAt rest)
    (read : List Token) (column : Nat) : tokensFrom read column 0 (l.chars ++ rest) =
      tokensFrom (⟨l, column⟩ :: read) (column + l.chars.length) 0 rest := by
  obtain ⟨c, cs, hc, hsp⟩ := Lexeme.chars_eq_cons h
  have hlen : l.text.length - 1 = cs.length := by
    rw [← String.length_toList, ← Lexeme.chars, hc]
    rfl
  rw [hc, List.cons_append, tokensFrom, hsp, if_neg (by decide), Lexeme.read_complete h hc hs]
  simp only [hlen]
  rw [tokensFrom_covered, List.length_cons]
  congr 1
  omega

/-- Induction along the reading of a text: it ends, passes a blank, fails, or passes a lexeme. -/
@[elab_as_elim]
theorem reading_induction {motive : List Char → Prop} (cs : List Char) (done : motive [])
    (blank : ∀ c rest, isSpace c = true → motive rest → motive (c :: rest))
    (fails : ∀ c rest fault, isSpace c = false → Lexeme.read c rest = .error fault → motive (c :: rest))
    (lexeme : ∀ (l : Lexeme) tail, l.isWritten = true → l.StopsAt tail → motive tail → motive (l.chars ++ tail)) :
    motive cs := by
  induction hn : cs.length using Nat.strong_induction_on generalizing cs with
  | _ n ih =>
    cases cs with
    | nil => exact done
    | cons c rest =>
      cases hsp : isSpace c with
      | true => exact blank c rest hsp (ih rest.length (by rw [← hn]; exact Nat.lt_succ_self _) rest rfl)
      | false =>
        cases hr : Lexeme.read c rest with
        | error fault => exact fails c rest fault hsp hr
        | ok l =>
          obtain ⟨hw, tail, htail, hs⟩ := Lexeme.read_sound hr
          -- the tail is shorter, since no lexeme is empty
          obtain ⟨d, ds, hd, -⟩ := Lexeme.chars_eq_cons hw
          rw [htail] at hn ⊢
          refine lexeme l tail hw hs (ih tail.length ?_ tail rfl)
          rw [← hn, hd, List.length_append, List.length_cons]
          omega

theorem tokensFrom_sound (cs : List Char) : ∀ {read : List Token} {column : Nat} {ts : List Token},
    tokensFrom read column 0 cs = .ok ts → ∃ ts', ts = read.reverse ++ ts' ∧ Segmentation column cs ts' := by
  induction cs using reading_induction with
  | done =>
    intro read column ts h
    cases h
    exact ⟨[], (List.append_nil _).symm, .done column⟩
  | blank c rest hsp ih =>
    intro read column ts h
    rw [tokensFrom, if_pos hsp] at h
    obtain ⟨ts', hts, hseg⟩ := ih h
    exact ⟨ts', hts, .blank hsp hseg⟩
  | fails c rest fault hsp hr =>
    intro read column ts h
    rw [tokensFrom, hsp, if_neg (by decide), hr] at h
    cases h
  | lexeme l tail hw hs ih =>
    intro read column ts h
    rw [tokensFrom_lexeme hw hs] at h
    obtain ⟨ts', hts, hseg⟩ := ih h
    exact ⟨⟨l, column⟩ :: ts', by rw [hts]; simp, .lexeme l hw hs hseg⟩

theorem tokensFrom_complete {column : Nat} {cs : List Char} {ts : List Token} (h : Segmentation column cs ts) :
    ∀ read : List Token, tokensFrom read column 0 cs = .ok (read.reverse ++ ts) := by
  induction h with
  | done column =>
    intro read
    rw [tokensFrom, List.append_nil]
  | blank space _ ih =>
    intro read
    rw [tokensFrom, if_pos space, ih]
  | lexeme l written stops _ ih =>
    intro read
    rw [tokensFrom_lexeme written stops, ih]
    simp

theorem tokens_eq_ok_iff {source : String} {ts : List Token} :
    tokens source = .ok ts ↔ Segmentation 1 source.toList ts := by
  constructor
  · intro h
    obtain ⟨ts', rfl, hseg⟩ := tokensFrom_sound _ h
    exact hseg
  · exact fun h => tokensFrom_complete h []

/-! ## What segmentations have in common -/

theorem Segmentation.isWritten {column : Nat} {cs : List Char} {ts : List Token} (h : Segmentation column cs ts) :
    ∀ t ∈ ts, t.lexeme.isWritten = true := by
  induction h with
  | done column => simp
  | blank _ _ ih => exact ih
  | lexeme l written _ _ ih =>
    intro t ht
    rcases List.mem_cons.mp ht with rfl | ht
    · exact written
    · exact ih t ht

theorem Segmentation.isInfix {column : Nat} {cs : List Char} {ts : List Token} (h : Segmentation column cs ts) :
    ∀ t ∈ ts, t.lexeme.chars <:+: cs := by
  induction h with
  | done column => simp
  | @blank column c cs ts _ _ ih => exact fun t ht => (ih t ht).trans (List.suffix_cons c cs).isInfix
  | @lexeme column l cs ts _ _ _ ih =>
    intro t ht
    rcases List.mem_cons.mp ht with rfl | ht
    · exact (List.prefix_append l.chars cs).isInfix
    · exact (ih t ht).trans (List.suffix_append l.chars cs).isInfix

theorem Segmentation.length_le {column : Nat} {cs : List Char} {ts : List Token} (h : Segmentation column cs ts) :
    ts.length ≤ cs.length := by
  induction h with
  | done column => exact Nat.le_refl _
  | blank _ _ ih => exact Nat.le_succ_of_le ih
  | lexeme l written _ _ ih =>
    obtain ⟨c, cs, hc, -⟩ := Lexeme.chars_eq_cons written
    rw [List.length_append, hc, List.length_cons, List.length_cons]
    omega

/-! ## Texts in pieces -/

theorem Lexeme.stopsAt_append {l : Lexeme} {cs ds : List Char} (h : l.StopsAt cs)
    (hd : ∀ c ∈ ds.head?, isRunChar c = false) : l.StopsAt (cs ++ ds) := by
  cases cs with
  | cons c cs => exact h
  | nil =>
    intro c hc
    have hrun := hd c hc
    cases l with
    | number n => exact hrun
    | name s =>
      rw [isRunChar, Bool.or_eq_false_iff] at hrun
      exact hrun.1
    | symbol s => rfl

theorem Segmentation.append {column : Nat} {cs ds : List Char} {ts us : List Token}
    (h : Segmentation column cs ts) (hd : ∀ c ∈ ds.head?, isRunChar c = false)
    (h' : Segmentation (column + cs.length) ds us) : Segmentation column (cs ++ ds) (ts ++ us) := by
  induction h with
  | done column => exact h'
  | blank space _ ih =>
    refine .blank space (ih ?_)
    rwa [List.length_cons, Nat.add_comm _ 1, ← Nat.add_assoc] at h'
  | lexeme l written stops _ ih =>
    rw [List.append_assoc]
    refine .lexeme l written (Lexeme.stopsAt_append stops hd) (ih ?_)
    rwa [List.length_append, ← Nat.add_assoc] at h'

/-! ## Texts cut at a symbol -/

theorem Symbol.char_injective {s t : Symbol} (h : s.char = t.char) : s = t := by
  have hs := Symbol.ofChar?_char s
  rw [h, Symbol.ofChar?_char] at hs
  exact (Option.some.inj hs).symm

theorem Lexeme.eq_symbol {l : Lexeme} (h : l.isWritten = true) {s : Symbol} (hs : s.char ∈ l.chars) :
    l = .symbol s := by
  have hrun : isRunChar s.char = false := (symbol_char s).2.2.2
  cases l with
  | number n =>
    rw [isWritten, Bool.and_eq_true] at h
    rw [chars_number] at hs
    have := Numeral.isRunChar_chars h.1 s.char hs
    rw [hrun] at this
    cases this
  | name n =>
    have := isRunChar_of_isNameChar (isNameChar_toList h s.char hs)
    rw [hrun] at this
    cases this
  | symbol t =>
    rw [chars_symbol, List.mem_singleton] at hs
    rw [Symbol.char_injective hs]

theorem Lexeme.StopsAt.left {l : Lexeme} {cs ds : List Char} (h : l.StopsAt (cs ++ ds)) : l.StopsAt cs := by
  cases cs with
  | nil => intro c hc; cases hc
  | cons c cs => exact h

theorem Lexeme.cut {l : Lexeme} (h : l.isWritten = true) {s : Symbol} {cs ds tail : List Char}
    (he : l.chars ++ tail = cs ++ s.char :: ds) :
    (∃ as, cs = l.chars ++ as ∧ tail = as ++ s.char :: ds) ∨ cs = [] ∧ l = .symbol s ∧ tail = ds := by
  rcases List.append_eq_append_iff.mp he with ⟨as, hcs, htail⟩ | ⟨as, hl, htail⟩
  · exact .inl ⟨as, hcs, htail⟩
  cases as with
  | nil =>
    rw [List.append_nil] at hl
    exact .inl ⟨[], by rw [hl, List.append_nil], htail.symm⟩
  | cons c as =>
    rw [List.cons_append, List.cons.injEq] at htail
    obtain ⟨rfl, rfl⟩ := htail
    obtain rfl := Lexeme.eq_symbol h (hl ▸ List.mem_append_right cs (List.mem_cons_self ..))
    rw [chars_symbol] at hl
    have hlen := congrArg List.length hl
    simp only [List.length_append, List.length_cons, List.length_nil] at hlen
    obtain rfl : cs = [] := List.length_eq_zero_iff.mp (by omega)
    obtain rfl : as = [] := List.length_eq_zero_iff.mp (by omega)
    exact .inr ⟨rfl, rfl, rfl⟩

theorem Segmentation.cut {column : Nat} {text : List Char} {ts : List Token} (h : Segmentation column text ts)
    (s : Symbol) (ds : List Char) : ∀ {cs : List Char}, text = cs ++ s.char :: ds →
    ∃ us vs, ts = us ++ ⟨.symbol s, column + cs.length⟩ :: vs ∧ Segmentation column cs us ∧
      Segmentation (column + cs.length + 1) ds vs := by
  induction h with
  | done column =>
    intro cs he
    exact absurd he.symm (by simp)
  | @blank column c rest ts space _ ih =>
    intro cs he
    cases cs with
    | nil =>
      have hc : c = s.char := List.head_eq_of_cons_eq he
      rw [hc, (symbol_char s).2.2.1] at space
      cases space
    | cons c' cs =>
      rw [List.cons_append, List.cons.injEq] at he
      obtain ⟨rfl, he⟩ := he
      obtain ⟨us, vs, rfl, hleft, hright⟩ := ih he
      have hcol : column + (c :: cs).length = column + 1 + cs.length := by rw [List.length_cons]; omega
      rw [hcol]
      exact ⟨us, vs, rfl, .blank space hleft, hright⟩
  | @lexeme column l tail ts written stops hrest ih =>
    intro cs he
    rcases Lexeme.cut written he with ⟨as, rfl, htail⟩ | ⟨rfl, rfl, rfl⟩
    · obtain ⟨us, vs, rfl, hleft, hright⟩ := ih htail
      rw [htail] at stops
      have hcol : column + (l.chars ++ as).length = column + l.chars.length + as.length := by
        rw [List.length_append]; omega
      rw [hcol]
      exact ⟨⟨l, column⟩ :: us, vs, rfl, .lexeme l written stops.left hleft, hright⟩
    · rw [Lexeme.chars_symbol] at hrest
      exact ⟨[], ts, rfl, .done column, hrest⟩

/-! ## What texts spell -/

/-- A text spells lexemes if it splits into them wherever it stands. -/
def Spells (cs : List Char) (ls : List Lexeme) : Prop :=
  ∀ column, ∃ ts, Segmentation column cs ts ∧ ts.map (·.lexeme) = ls

namespace Spells

theorem nil : Spells [] [] := fun column => ⟨[], .done column, rfl⟩

theorem blank {c : Char} (hc : isSpace c = true) {cs : List Char} {ls : List Lexeme} (h : Spells cs ls) :
    Spells (c :: cs) ls := by
  intro column
  obtain ⟨ts, hseg, hls⟩ := h (column + 1)
  exact ⟨ts, .blank hc hseg, hls⟩

theorem lexeme {l : Lexeme} (hl : l.isWritten = true) {cs : List Char} (hs : l.StopsAt cs) {ls : List Lexeme}
    (h : Spells cs ls) : Spells (l.chars ++ cs) (l :: ls) := by
  intro column
  obtain ⟨ts, hseg, hls⟩ := h (column + l.chars.length)
  exact ⟨⟨l, column⟩ :: ts, .lexeme l hl hs hseg, by rw [List.map_cons, hls]⟩

theorem symbol (s : Symbol) {cs : List Char} {ls : List Lexeme} (h : Spells cs ls) :
    Spells (s.char :: cs) (.symbol s :: ls) := by
  have := lexeme (show (Lexeme.symbol s).isWritten = true from rfl) (fun _ _ => rfl) h
  rwa [Lexeme.chars_symbol] at this

theorem single {l : Lexeme} (hl : l.isWritten = true) : Spells l.chars [l] := by
  have := lexeme hl (fun _ hc => by cases hc) nil
  rwa [List.append_nil] at this

theorem append {cs ds : List Char} {ls ms : List Lexeme} (h : Spells cs ls) (h' : Spells ds ms)
    (hd : ∀ c ∈ ds.head?, isRunChar c = false) : Spells (cs ++ ds) (ls ++ ms) := by
  intro column
  obtain ⟨ts, hseg, hls⟩ := h column
  obtain ⟨us, hseg', hms⟩ := h' (column + cs.length)
  exact ⟨ts ++ us, hseg.append hd hseg', by rw [List.map_append, hls, hms]⟩

theorem append_symbol {cs ds : List Char} {ls ms : List Lexeme} (h : Spells cs ls) (s : Symbol)
    (h' : Spells ds ms) : Spells (cs ++ s.char :: ds) (ls ++ .symbol s :: ms) := by
  refine append h (symbol s h') fun c hc => ?_
  cases hc
  exact (symbol_char s).2.2.2

theorem of_segmentation {column : Nat} {cs : List Char} {ts : List Token} (h : Segmentation column cs ts) :
    Spells cs (ts.map (·.lexeme)) := by
  induction h with
  | done column => exact nil
  | blank space _ ih => exact ih.blank space
  | lexeme l written stops _ ih => exact ih.lexeme written stops

theorem unique {cs : List Char} {ls ms : List Lexeme} (h : Spells cs ls) (h' : Spells cs ms) : ls = ms := by
  obtain ⟨ts, hts, rfl⟩ := h 1
  obtain ⟨us, hus, rfl⟩ := h' 1
  rw [← String.toList_ofList (l := cs), ← tokens_eq_ok_iff] at hts hus
  rw [hts] at hus
  cases hus
  rfl

theorem cut {cs ds : List Char} {s : Symbol} {ls : List Lexeme} (h : Spells (cs ++ s.char :: ds) ls) :
    ∃ ms ns, ls = ms ++ .symbol s :: ns ∧ Spells cs ms ∧ Spells ds ns := by
  obtain ⟨ts, hts, rfl⟩ := h 1
  obtain ⟨us, vs, rfl, hus, hvs⟩ := hts.cut s ds rfl
  exact ⟨us.map (·.lexeme), vs.map (·.lexeme), by simp, of_segmentation hus, of_segmentation hvs⟩

end Spells

end Calculator
