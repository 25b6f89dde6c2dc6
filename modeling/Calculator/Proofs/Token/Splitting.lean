import Calculator.Proofs.Token.Placement

/-!
# The one way to split a text

`Splits` says of a list of blank runs and lexemes that a text consists of them, each as long as it can be.
`tokens_iff_splits`: a text is read exactly if it splits, it splits in one way only, and its tokens are the lexemes of
that split where they stand in the text.
-/

namespace Calculator

/-! ## Splits -/

inductive Piece where
  | blanks (run : List Char)
  | lexeme (l : Lexeme)

/-- Numerals without a point have values up to `maxInteger`, however long they are. -/
def Lexeme.isSpelled : Lexeme → Bool
  | number n => n.isSpelling && (n.fraction.isSome || decide (Nat.ofDigitChars 10 n.whole 0 ≤ maxInteger))
  | name s => isName s
  | symbol _ => true

inductive Splits : List Char → List Piece → Prop
  | done : Splits [] []
  | blanks {run cs : List Char} {ps : List Piece} (ne : run ≠ []) (spaces : ∀ c ∈ run, isSpace c = true)
      (stops : ∀ c ∈ cs.head?, isSpace c = false) (rest : Splits cs ps) : Splits (run ++ cs) (.blanks run :: ps)
  | lexeme {l : Lexeme} {cs : List Char} {ps : List Piece} (spelled : l.isSpelled = true) (stops : l.StopsAt cs)
      (rest : Splits cs ps) : Splits (l.chars ++ cs) (.lexeme l :: ps)

def place (column : Nat) : List Piece → List Token
  | [] => []
  | .blanks run :: ps => place (column + run.length) ps
  | .lexeme l :: ps => ⟨l, column⟩ :: place (column + l.chars.length) ps

/-- No run of digits is too long to be converted. -/
def HasShortRuns (cs : List Char) : Prop :=
  ∀ run, run <:+: cs → (∀ c ∈ run, c.isDigit = true) → run.length ≤ maxIntegerDigits

theorem HasShortRuns.infix {cs ds : List Char} (h : HasShortRuns cs) (hd : ds <:+: cs) : HasShortRuns ds :=
  fun run hr => h run (hr.trans hd)

theorem HasShortRuns.right {cs ds : List Char} (h : HasShortRuns (cs ++ ds)) : HasShortRuns ds :=
  h.infix (List.suffix_append cs ds).isInfix

theorem hasShortRuns_of_length_le {cs : List Char} (h : cs.length ≤ maxIntegerDigits) : HasShortRuns cs :=
  fun _ hr _ => Nat.le_trans hr.length_le h

/-! ## Spelled lexemes -/

namespace Lexeme

theorem isSpelled_of_isWritten {l : Lexeme} (h : l.isWritten = true) : l.isSpelled = true := by
  cases l with
  | number n =>
    simp only [isWritten, Numeral.isInRange, Bool.and_eq_true, Bool.or_eq_true] at h
    simp only [isSpelled, Bool.and_eq_true, Bool.or_eq_true]
    exact ⟨h.1, h.2.imp_right (·.2)⟩
  | name s => exact h
  | symbol s => rfl

theorem isWritten_of_isSpelled {l : Lexeme} (h : l.isSpelled = true) {cs : List Char}
    (hs : HasShortRuns (l.chars ++ cs)) : l.isWritten = true := by
  cases l with
  | number n =>
    obtain ⟨whole, fraction⟩ := n
    simp only [isSpelled, Bool.and_eq_true, Bool.or_eq_true] at h
    simp only [isWritten, Numeral.isInRange, Bool.and_eq_true, Bool.or_eq_true]
    refine ⟨h.1, ?_⟩
    cases fraction with
    | some digits => exact .inl rfl
    | none =>
      have hd := h.1
      simp only [Numeral.isSpelling, Bool.and_eq_true, List.all_eq_true] at hd
      have hrun : whole <:+: (number ⟨whole, none⟩).chars ++ cs := by
        rw [chars_number]
        exact (List.prefix_append whole cs).isInfix
      have hlen := hs whole hrun hd.1
      exact .inr ⟨by simpa using hlen, h.2.resolve_left (by simp)⟩
  | name s => exact h
  | symbol s => rfl

theorem chars_eq_cons_of_isSpelled {l : Lexeme} (h : l.isSpelled = true) :
    ∃ c ds, l.chars = c :: ds ∧ isSpace c = false := by
  cases l with
  | number n =>
    rw [isSpelled, Bool.and_eq_true] at h
    rw [chars_number]
    exact Numeral.chars_eq_cons h.1
  | name s => exact toList_eq_cons h
  | symbol s => exact ⟨s.char, [], chars_symbol s, (symbol_char s).2.2.1⟩

end Lexeme

/-! ## Splits and segmentations -/

theorem Segmentation.blanks {run cs : List Char} (hr : ∀ c ∈ run, isSpace c = true) {ts : List Token} :
    ∀ {column : Nat}, Segmentation (column + run.length) cs ts → Segmentation column (run ++ cs) ts := by
  induction run with
  | nil => exact fun h => h
  | cons c run ih =>
    intro column h
    refine .blank (hr c (by simp)) (ih (fun d hd => hr d (by simp [hd])) ?_)
    rwa [List.length_cons, Nat.add_comm run.length, ← Nat.add_assoc] at h

theorem Splits.segmentation {cs : List Char} {ps : List Piece} (h : Splits cs ps) (hs : HasShortRuns cs) :
    ∀ column, Segmentation column cs (place column ps) := by
  induction h with
  | done => exact .done
  | blanks _ spaces _ _ ih => exact fun column => .blanks spaces (ih hs.right _)
  | lexeme spelled stops _ ih =>
    exact fun column => .lexeme _ (Lexeme.isWritten_of_isSpelled spelled hs) stops (ih hs.right _)

theorem Splits.single {c : Char} (hc : isSpace c = true) {cs : List Char} {ps : List Piece} (h : Splits cs ps)
    (stops : ∀ d ∈ cs.head?, isSpace d = false) : Splits (c :: cs) (.blanks [c] :: ps) := by
  have hs : Splits ([c] ++ cs) (.blanks [c] :: ps) := .blanks (by simp) (by simpa using hc) stops h
  exact hs

theorem Splits.blank {c : Char} (hc : isSpace c = true) {cs : List Char} {ps : List Piece} (h : Splits cs ps) :
    ∃ qs, Splits (c :: cs) qs ∧ ∀ column, place column qs = place (column + 1) ps := by
  cases h with
  | done => exact ⟨_, Splits.done.single hc (by simp), fun _ => rfl⟩
  | @blanks run cs ps ne spaces stops rest =>
    refine ⟨.blanks (c :: run) :: ps, .blanks (by simp) (List.forall_mem_cons.mpr ⟨hc, spaces⟩) stops rest, ?_⟩
    intro column
    simp only [place, List.length_cons]
    congr 1
    omega
  | @lexeme l cs ps spelled stops rest =>
    refine ⟨_, (Splits.lexeme spelled stops rest).single hc ?_, fun _ => rfl⟩
    obtain ⟨d, ds, hd, hsp⟩ := Lexeme.chars_eq_cons_of_isSpelled spelled
    simpa [hd] using hsp

theorem Segmentation.splits {column : Nat} {cs : List Char} {ts : List Token} (h : Segmentation column cs ts) :
    ∃ ps, Splits cs ps ∧ place column ps = ts := by
  induction h with
  | done column => exact ⟨[], .done, rfl⟩
  | blank space _ ih =>
    obtain ⟨ps, hs, hp⟩ := ih
    obtain ⟨qs, hq, hplace⟩ := hs.blank space
    exact ⟨qs, hq, by rw [hplace, hp]⟩
  | lexeme l written stops _ ih =>
    obtain ⟨ps, hs, hp⟩ := ih
    exact ⟨.lexeme l :: ps, .lexeme (Lexeme.isSpelled_of_isWritten written) stops hs, by rw [place, hp]⟩

/-! ## No text splits in two ways -/

section
variable {cs cs' : List Char}

theorem blanks_unique {run run' : List Char} (h : ∀ c ∈ run, isSpace c = true) (h' : ∀ c ∈ run', isSpace c = true)
    (hs : ∀ c ∈ cs.head?, isSpace c = false) (hs' : ∀ c ∈ cs'.head?, isSpace c = false)
    (he : run ++ cs = run' ++ cs') : run = run' ∧ cs = cs' := by
  obtain ⟨ht, hd⟩ := takeWhile_append cs h hs
  obtain ⟨ht', hd'⟩ := takeWhile_append cs' h' hs'
  rw [he] at ht hd
  exact ⟨ht.symm.trans ht', hd.symm.trans hd'⟩

/-- Reading at the front of the text finds both. -/
theorem lexeme_unique {l l' : Lexeme} (h : l.isWritten = true) (h' : l'.isWritten = true) (hs : l.StopsAt cs)
    (hs' : l'.StopsAt cs') (he : l.chars ++ cs = l'.chars ++ cs') : l = l' ∧ cs = cs' := by
  obtain ⟨c, ds, hc, -⟩ := Lexeme.chars_eq_cons h
  obtain ⟨c', ds', hc', -⟩ := Lexeme.chars_eq_cons h'
  have hread := Lexeme.read_complete h hc hs
  have hread' := Lexeme.read_complete h' hc' hs'
  have hcs := he
  rw [hc, hc', List.cons_append, List.cons_append, List.cons.injEq] at hcs
  rw [hcs.1, hcs.2, hread'] at hread
  cases hread
  exact ⟨rfl, List.append_cancel_left he⟩

theorem blanks_ne_lexeme {run : List Char} (ne : run ≠ []) (h : ∀ c ∈ run, isSpace c = true) {l : Lexeme}
    (hl : l.isSpelled = true) : run ++ cs ≠ l.chars ++ cs' := by
  intro he
  obtain ⟨c, ds, hc, hsp⟩ := Lexeme.chars_eq_cons_of_isSpelled hl
  obtain ⟨d, run, rfl⟩ := List.exists_cons_of_ne_nil ne
  rw [hc, List.cons_append, List.cons_append, List.cons.injEq] at he
  rw [← he.1, h d (by simp)] at hsp
  cases hsp

end

theorem Splits.unique {cs : List Char} {ps : List Piece} (h : Splits cs ps) : HasShortRuns cs →
    ∀ {qs : List Piece}, Splits cs qs → ps = qs := by
  induction h with
  | done =>
    intro _ qs h'
    generalize he : ([] : List Char) = text at h'
    cases h' with
    | done => rfl
    | blanks ne _ _ _ => exact absurd (List.append_eq_nil_iff.mp he.symm).1 ne
    | lexeme spelled _ _ =>
      obtain ⟨c, ds, hc, -⟩ := Lexeme.chars_eq_cons_of_isSpelled spelled
      rw [hc] at he
      cases he
  | @blanks run cs ps ne spaces stops _ ih =>
    intro hs qs h'
    generalize he : run ++ cs = text at h'
    cases h' with
    | done => exact absurd (List.append_eq_nil_iff.mp he).1 ne
    | blanks _ spaces' stops' rest' =>
      obtain ⟨rfl, rfl⟩ := blanks_unique spaces spaces' stops stops' he
      rw [ih hs.right rest']
    | lexeme spelled _ _ => exact absurd he (blanks_ne_lexeme ne spaces spelled)
  | @lexeme l cs ps spelled stops _ ih =>
    intro hs qs h'
    have hw := Lexeme.isWritten_of_isSpelled spelled hs
    generalize he : l.chars ++ cs = text at h' hs
    cases h' with
    | done =>
      obtain ⟨c, ds, hc, -⟩ := Lexeme.chars_eq_cons_of_isSpelled spelled
      rw [hc] at he
      cases he
    | blanks ne spaces _ _ => exact absurd he.symm (blanks_ne_lexeme ne spaces spelled)
    | lexeme spelled' stops' rest' =>
      obtain ⟨rfl, rfl⟩ := lexeme_unique hw (Lexeme.isWritten_of_isSpelled spelled' hs) stops stops' he
      rw [ih hs.right rest']

/-! ## Tokens -/

/-- The raw tokens of a text. The last of them, and no other, is a mark at its end; each has the slice of the text at
its column, they follow one another without overlap, and only blanks lie outside of them. -/
structure Tiles (source : String) (raws : List RawToken) : Prop where
  marked : ∃ front, raws = front ++ [⟨"EOF", "", source.length + 1⟩] ∧ ∀ t ∈ front, t.type ≠ "EOF" ∧ t.value ≠ ""
  slice : ∀ t ∈ raws, 1 ≤ t.column ∧ (source.toList.drop (t.column - 1)).take t.value.length = t.value.toList
  ordered : raws.Pairwise fun t u => t.column < u.column ∧ t.column + t.value.length ≤ u.column
  between : ∀ i c, source.toList[i]? = some c →
    isSpace c = true ∨ ∃ t ∈ raws, t.column ≤ 1 + i ∧ 1 + i < t.column + t.value.length

theorem Lexeme.type_ne_end (l : Lexeme) : l.type ≠ "EOF" := by cases l <;> simp [Lexeme.type]

theorem Token.finish_eq (t : Token) : t.finish = t.raw.column + t.raw.value.length :=
  congrArg (t.column + ·) String.length_toList

theorem Covers.tiles {source : String} {ts : List Token} (h : Covers 1 source.toList ts) :
    Tiles source (ts.map Token.raw ++ [⟨"EOF", "", endColumn source⟩]) where
  marked := by
    refine ⟨_, rfl, List.forall_mem_map.mpr fun t ht => ⟨t.lexeme.type_ne_end, fun hempty => ?_⟩⟩
    have hin := (h.inside t ht).2.1
    rw [t.finish_eq, hempty] at hin
    exact absurd hin (Nat.lt_irrefl _)
  slice := by
    rw [List.forall_mem_append, List.forall_mem_map, List.forall_mem_singleton]
    refine ⟨fun t ht => ⟨(h.inside t ht).1, ?_⟩, Nat.le_add_left 1 _, rfl⟩
    have hslice := h.slice t ht
    rw [Lexeme.chars, String.length_toList] at hslice
    exact hslice
  ordered := by
    rw [List.pairwise_append, List.pairwise_map]
    refine ⟨h.ordered.imp_of_mem fun {t u} ht _ hle => ?_, List.pairwise_singleton _ _, ?_⟩
    · have hin := (h.inside t ht).2.1
      rw [t.finish_eq] at hin hle
      exact ⟨Nat.lt_of_lt_of_le hin hle, hle⟩
    · rw [List.forall_mem_map]
      intro t ht u hu
      obtain rfl := List.mem_singleton.mp hu
      obtain ⟨-, hin, hend⟩ := h.inside t ht
      rw [String.length_toList, Nat.add_comm] at hend
      rw [t.finish_eq] at hin hend
      exact ⟨Nat.lt_of_lt_of_le hin hend, hend⟩
  between i c hc := by
    refine (h.between i c hc).imp_right ?_
    rintro ⟨t, ht, hle, hlt⟩
    rw [t.finish_eq] at hlt
    exact ⟨t.raw, List.mem_append_left _ (List.mem_map_of_mem ht), hle, hlt⟩

theorem tokenize_eq_ok_iff {source : String} {raws : List RawToken} : tokenize source = .ok raws ↔
    ∃ ts, tokens source = .ok ts ∧ ts.map Token.raw ++ [⟨"EOF", "", endColumn source⟩] = raws := by
  unfold tokenize
  cases tokens source <;> simp [Except.map]

theorem tokens_iff_splits {source : String} (h : HasShortRuns source.toList) :
    (∀ ts, tokens source = .ok ts ↔ ∃ ps, Splits source.toList ps ∧ place 1 ps = ts) ∧
      (∀ ps qs, Splits source.toList ps → Splits source.toList qs → ps = qs) ∧
      (∀ ts, tokens source = .ok ts → Covers 1 source.toList ts) ∧
      (∀ raws, tokenize source = .ok raws ↔
        ∃ ps, Splits source.toList ps ∧ (place 1 ps).map Token.raw ++ [⟨"EOF", "", source.length + 1⟩] = raws) ∧
      ∀ raws, tokenize source = .ok raws → Tiles source raws := by
  have hsplits : ∀ ts, tokens source = .ok ts ↔ ∃ ps, Splits source.toList ps ∧ place 1 ps = ts := by
    intro ts
    rw [tokens_eq_ok_iff]
    constructor
    · exact Segmentation.splits
    · rintro ⟨ps, hs, rfl⟩
      exact hs.segmentation h 1
  have hcovers : ∀ ts, tokens source = .ok ts → Covers 1 source.toList ts := fun ts ht =>
    (tokens_eq_ok_iff.mp ht).covers
  refine ⟨hsplits, fun ps qs hp hq => hp.unique h hq, hcovers, fun raws => ?_, fun raws hraws => ?_⟩
  · rw [tokenize_eq_ok_iff]
    simp only [hsplits]
    constructor
    · rintro ⟨_, ⟨ps, hs, rfl⟩, hraws⟩
      exact ⟨ps, hs, hraws⟩
    · rintro ⟨ps, hs, hraws⟩
      exact ⟨_, ⟨ps, hs, rfl⟩, hraws⟩
  · obtain ⟨ts, ht, rfl⟩ := tokenize_eq_ok_iff.mp hraws
    exact (hcovers ts ht).tiles

/-- A point that begins a numeral behind a name, and one that ends a numeral before a name. -/
theorem tokens_iff_splits_points :
    HasShortRuns "x.5 %\t007.| y_1".toList ∧ ∃ raws, tokenize "x.5 %\t007.| y_1" = .ok raws ∧
      raws.map RawToken.value = ["x", ".5", "%", "007.", "|", "y_1", ""] ∧
      raws.map RawToken.column = [1, 2, 5, 7, 11, 13, 16] ∧ Tiles "x.5 %\t007.| y_1" raws := by
  have h : HasShortRuns "x.5 %\t007.| y_1".toList := hasShortRuns_of_length_le (by decide)
  have hraws : tokenize "x.5 %\t007.| y_1" = .ok _ := rfl
  exact ⟨h, _, hraws, rfl, rfl, (tokens_iff_splits h).2.2.2.2 _ hraws⟩

end Calculator
