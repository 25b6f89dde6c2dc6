import Calculator.Proofs.Grammar.Exact
import Calculator.Proofs.Grammar.Reading
import Calculator.Proofs.Token.Placement

/-!
# Faults are reported at the first impossible token

`fault_at_first_impossible`: if the tokens of a text are no expression, the column reported is that of the first token
up to which they cannot be continued to one, or of the parenthesis left open where they end behind an operand.
-/

namespace Calculator.Grammar
open Grammar.Derivation

/-! ## Impossible tokens -/

/-- The lexemes are read as an expression if the limit of nesting is large enough. -/
def Accepted (ls : List Lexeme) : Prop := ∃ limit t, Expr.ofLexemes limit ls = .ok t

/-- Lexemes can follow with which these are accepted. -/
def Viable (ls : List Lexeme) : Prop := ∃ more, (∀ l ∈ more, l.isWritten = true) ∧ Accepted (ls ++ more)

/-- The lexemes before a place can be continued, and those up to it cannot. The last place is that of the end. -/
structure FirstImpossible (ls : List Lexeme) (i : Nat) : Prop where
  viable : Viable (ls.take i)
  impossible : (i < ls.length ∧ ∀ more, ¬ Accepted (ls.take (i + 1) ++ more)) ∨ (i = ls.length ∧ ¬ Accepted ls)

theorem FirstImpossible.le {ls : List Lexeme} {i : Nat} (h : FirstImpossible ls i) : i ≤ ls.length := by
  rcases h.impossible with ⟨hi, -⟩ | ⟨hi, -⟩ <;> omega

theorem FirstImpossible.not_lt {ls : List Lexeme} {i j : Nat} (hi : FirstImpossible ls i)
    (hj : FirstImpossible ls j) : ¬ i < j := by
  intro hlt
  obtain ⟨more, -, hacc⟩ := hj.viable
  have hle := hj.le
  rcases hi.impossible with ⟨-, him⟩ | ⟨rfl, -⟩
  · -- the lexemes before `j` begin with those up to `i`
    have hsplit : ls.take j = ls.take (i + 1) ++ (ls.take j).drop (i + 1) := by
      have htake : (ls.take j).take (i + 1) = ls.take (i + 1) := by rw [List.take_take, Nat.min_eq_left hlt]
      rw [← htake, List.take_append_drop]
    rw [hsplit, List.append_assoc] at hacc
    exact him _ hacc
  · omega

theorem FirstImpossible.unique {ls : List Lexeme} {i j : Nat} (hi : FirstImpossible ls i)
    (hj : FirstImpossible ls j) : j = i := by
  have := hi.not_lt hj
  have := hj.not_lt hi
  omega

/-! ## Acceptance and derivations -/

theorem accepted_iff {ls : List Lexeme} : Accepted ls ↔ ∃ d : Expression, d.lexemes = ls := by
  constructor
  · rintro ⟨limit, t, h⟩
    obtain ⟨d, hd, -⟩ := ofLexemes_sound h
    exact ⟨d, hd⟩
  · rintro ⟨d, rfl⟩
    exact ⟨_, _, ofLexemes_complete d (Nat.le_refl _)⟩

theorem viable_of_begins {ls : List Lexeme} (h : Begins (.phrase (.chain .bitOr)) ls) : Viable ls := by
  obtain ⟨d, more, hd, hm⟩ := h
  exact ⟨more, hm, accepted_iff.mpr ⟨d, hd⟩⟩

theorem not_accepted_of_impossible {read : List Lexeme} {l : Lexeme}
    (h : Impossible (.phrase (.chain .bitOr)) read l) (more : List Lexeme) : ¬ Accepted (read ++ l :: more) := by
  rw [accepted_iff]
  rintro ⟨d, hd⟩
  exact h d [] more (Phrase.stops_nil _) (by rw [List.append_nil, hd])

theorem not_accepted_behind (d : Expression) {l : Lexeme} {rest : List Lexeme}
    (h : (Phrase.chain .bitOr).Stops (l :: rest)) (more : List Lexeme) : ¬ Accepted (d.lexemes ++ l :: more) := by
  rw [accepted_iff]
  rintro ⟨d', hd'⟩
  have hd : d'.lexemes ++ [] = d.lexemes ++ l :: more := by rw [List.append_nil, hd']
  cases (determined d' d (Phrase.stops_nil _) (Phrase.Stops.head h) hd).2

theorem not_accepted_of_error {limit : Nat} {ls : List Lexeme} {e : GrammarError}
    (h : Expr.ofLexemes limit ls = .error e) (hdeep : e.fault ≠ .tooDeep) : ¬ Accepted ls := by
  rw [accepted_iff]
  rintro ⟨d, rfl⟩
  have hok := ofLexemes_complete d (Nat.le_max_right limit d.lexemes.length)
  rcases ofLexemes_agrees (Nat.le_max_left limit d.lexemes.length) d.lexemes with ⟨-, k, hk⟩ | ⟨-, he⟩
  · rw [h] at hk
    cases hk
    exact hdeep rfl
  · rw [h, hok] at he
    cases he

/-! ## What is reported of a list of lexemes -/

/-- The fault concerns the first impossible place, or the innermost parenthesis open where the lexemes end. -/
structure Reported (ls : List Lexeme) (i : Nat) (e : GrammarError) : Prop where
  first : FirstImpossible ls i
  unclosed_iff : e.fault = .unmatchedOpening ↔ i = ls.length ∧ CompletesOperand ls ∧ openings 0 [] ls ≠ []
  place : e.fault ≠ .unmatchedOpening → i + e.ahead = ls.length
  innermost : e.fault = .unmatchedOpening → ∃ j, (openings 0 [] ls).head? = some j ∧
    ls[j]? = some (.symbol .opening) ∧ j + e.ahead = ls.length

theorem Reported.lexeme {read rest : List Lexeme} {l : Lexeme} {fault : GrammarFault}
    (begins : Begins (.phrase (.chain .bitOr)) read) (impossible : ∀ more, ¬ Accepted (read ++ l :: more))
    (here : fault ≠ .unmatchedOpening) : Reported (read ++ l :: rest) read.length ⟨fault, rest.length + 1⟩ where
  first := {
    viable := by
      rw [List.take_left]
      exact viable_of_begins begins
    impossible := by
      refine .inl ⟨by simp, fun more => ?_⟩
      have htake : (read ++ l :: rest).take (read.length + 1) = read ++ [l] := by
        rw [List.take_length_add_append]
        rfl
      rw [htake, List.append_assoc]
      exact impossible more }
  unclosed_iff := ⟨fun h => absurd h here, fun h => absurd h.1 (by simp)⟩
  place := fun _ => by simp
  innermost := fun h => absurd h here

theorem Reported.finish {ls : List Lexeme} {fault : GrammarFault} (begins : Begins (.phrase (.chain .bitOr)) ls)
    (rejected : ¬ Accepted ls) (due : ∀ l ∈ ls.getLast?, endsOperand l = false) (here : fault ≠ .unmatchedOpening) :
    Reported ls ls.length ⟨fault, 0⟩ where
  first := {
    viable := by
      rw [List.take_length]
      exact viable_of_begins begins
    impossible := .inr ⟨rfl, rejected⟩ }
  unclosed_iff := ⟨fun h => absurd h here, fun h => absurd h.2.1 (not_completesOperand due)⟩
  place := fun _ => rfl
  innermost := fun h => absurd h here

theorem openings_unclosed {before inside : List Lexeme}
    (closed : ∀ place opened, openings place opened inside = opened) :
    openings 0 [] (before ++ .symbol .opening :: inside) = before.length :: openings 0 [] before := by
  rw [openings_append, openings, closed, Nat.zero_add]

theorem Reported.unclosed {before inside : List Lexeme}
    (begins : Begins (.phrase (.chain .bitOr)) (before ++ .symbol .opening :: inside))
    (rejected : ¬ Accepted (before ++ .symbol .opening :: inside))
    (closed : ∀ place opened, openings place opened inside = opened) (completes : CompletesOperand inside) :
    Reported (before ++ .symbol .opening :: inside) (before ++ .symbol .opening :: inside).length
      ⟨.unmatchedOpening, inside.length + 1⟩ where
  first := {
    viable := by
      rw [List.take_length]
      exact viable_of_begins begins
    impossible := .inr ⟨rfl, rejected⟩ }
  unclosed_iff := by
    have hcompletes := (completes.append_left [.symbol .opening]).append_left before
    exact ⟨fun _ => ⟨rfl, hcompletes, by simp [openings_unclosed closed]⟩, fun _ => rfl⟩
  place := fun h => absurd rfl h
  innermost := fun _ => ⟨before.length, by rw [openings_unclosed closed]; rfl, by simp, by simp⟩

theorem Blocked.reported {ls : List Lexeme} {e : GrammarError} (h : Blocked (.phrase (.chain .bitOr)) ls e)
    (hdeep : e.fault ≠ .tooDeep) (hrej : ¬ Accepted ls) : ∃ i, Reported ls i e := by
  cases h with
  | deep k => exact absurd rfl hdeep
  | lexeme split begins impossible here =>
    subst split
    exact ⟨_, .lexeme begins (not_accepted_of_impossible impossible) here⟩
  | finish begins due => exact ⟨_, .finish begins hrej due (by decide)⟩
  | unclosed split begins closed completes =>
    subst split
    exact ⟨_, .unclosed begins hrej closed completes⟩

theorem ofLexemes_reported {limit : Nat} {ls : List Lexeme} {e : GrammarError}
    (h : Expr.ofLexemes limit ls = .error e) (hdeep : e.fault ≠ .tooDeep) : ∃ i, Reported ls i e := by
  have hrej := not_accepted_of_error h hdeep
  have hx := expression_exact (operand_exact ls.length limit)
  unfold Expr.ofLexemes at h
  split at h
  · cases h
    exact ⟨_, .finish begins_expression hrej (by simp) (by decide)⟩
  · simp only at h
    split at h
    · rename_i he
      cases h
      exact (hx.blocked (Nat.le_refl _) he).reported hdeep hrej
    · cases h
    · rename_i ahead hne he
      obtain ⟨d, hd, hs⟩ := hx.read (Nat.le_refl _) he
      cases ahead with
      | nil => exact (hne rfl).elim
      | cons l rest =>
        obtain ⟨fault, here, hu⟩ := unexpected_eq Expr l rest
        rw [hu] at h
        cases h
        rw [hd]
        exact ⟨_, .lexeme (begins_lexemes d) (not_accepted_behind d hs) here⟩

/-! ## Columns -/

def columnAt (source : String) (ts : List Token) (i : Nat) : Nat :=
  match ts[i]? with
  | some t => t.column
  | none => endColumn source

theorem columnAhead_eq (source : String) (ts : List Token) (k : Nat) :
    columnAhead ts (endColumn source) k = columnAt source ts (ts.length - k) := by
  have hhead : (ts.drop (ts.length - k)).head? = ts[ts.length - k]? := List.head?_drop
  rw [columnAhead, columnAt, ← hhead]
  cases ts.drop (ts.length - k) <;> rfl

theorem columnAhead_eq_columnAt (source : String) {ts : List Token} {i k : Nat} (h : i + k = ts.length) :
    columnAhead ts (endColumn source) k = columnAt source ts i := by
  have hi : ts.length - k = i := by omega
  rw [columnAhead_eq, hi]

theorem columnAhead_bounds {source : String} {ts : List Token} (h : tokens source = .ok ts) (k : Nat) :
    1 ≤ columnAhead ts (endColumn source) k ∧ columnAhead ts (endColumn source) k ≤ source.length + 1 := by
  unfold columnAhead
  split
  · rename_i t rest hdrop
    have ht : t ∈ ts := List.mem_of_mem_drop (hdrop ▸ List.mem_cons_self)
    obtain ⟨hfirst, hne, hlast⟩ := (tokens_eq_ok_iff.mp h).covers.inside t ht
    rw [String.length_toList] at hlast
    omega
  · exact ⟨Nat.succ_le_succ (Nat.zero_le _), Nat.le_refl _⟩

theorem message_eq_unmatchedOpening_iff {fault : GrammarFault} :
    fault.message = "unmatched '('" ↔ fault = .unmatchedOpening := by
  constructor
  · intro h
    cases fault with
    | unmatchedOpening => rfl
    | unexpected l =>
      have hlist : ("unexpected token '" ++ l.text ++ "'").toList = "unmatched '('".toList := congrArg String.toList h
      simp at hlist
    | _ => exact absurd h (by decide +kernel)
  · rintro rfl
    rfl

/-! ## Texts -/

section
variable {limit : Nat} {source : String} {ts : List Token} (ht : tokens source = .ok ts)
include ht

theorem nestsTooDeep_of_error {k : Nat} (h : Expr.ofLexemes limit (ts.map (·.lexeme)) = .error ⟨.tooDeep, k⟩) :
    Expr.NestsTooDeep limit source := by
  have hparse : Expr.parseWithin limit source = .error (.grammar .tooDeep (columnAhead ts (endColumn source) k)) := by
    simp only [Expr.parseWithin, ht, h]
  rcases ofLexemes_agrees (Nat.le_refl limit) (ts.map (·.lexeme)) with ⟨hd, -⟩ | ⟨hk, -⟩
  · rw [List.length_map] at hd
    exact ⟨Nat.le_trans hd (length_tokens_le ht), _, hparse⟩
  · exact absurd h (hk k)

theorem fault_at_first_impossible (hfail : ∀ t, Expr.parseWithin limit source ≠ .ok t) :
    Expr.NestsTooDeep limit source ∨ ∃ fault column i,
      Expr.parseWithin limit source = .error (.grammar fault column) ∧
      FirstImpossible (ts.map (·.lexeme)) i ∧ (∀ j, FirstImpossible (ts.map (·.lexeme)) j → j = i) ∧
      (fault.message = "unmatched '('" ↔
        i = ts.length ∧ CompletesOperand (ts.map (·.lexeme)) ∧ openings 0 [] (ts.map (·.lexeme)) ≠ []) ∧
      (fault.message ≠ "unmatched '('" → column = columnAt source ts i) ∧
      (fault.message = "unmatched '('" → ∃ j t, (openings 0 [] (ts.map (·.lexeme))).head? = some j ∧
        ts[j]? = some t ∧ t.lexeme = .symbol .opening ∧ column = t.column) ∧
      1 ≤ column ∧ column ≤ source.length + 1 := by
  cases ho : Expr.ofLexemes limit (ts.map (·.lexeme)) with
  | ok t => exact absurd (parseWithin_eq_ok_iff.mpr ⟨ts, ht, ho⟩) (hfail t)
  | error e =>
    obtain ⟨fault, ahead⟩ := e
    have hparse : Expr.parseWithin limit source =
        .error (.grammar fault (columnAhead ts (endColumn source) ahead)) := by
      simp only [Expr.parseWithin, ht, ho]
    by_cases hdeep : fault = .tooDeep
    · subst hdeep
      exact .inl (nestsTooDeep_of_error ht ho)
    · obtain ⟨i, first, unclosed, place, innermost⟩ := ofLexemes_reported ho hdeep
      rw [List.length_map] at unclosed place innermost
      simp only [ne_eq, ← message_eq_unmatchedOpening_iff] at unclosed place innermost
      refine .inr ⟨_, _, i, hparse, first, fun j => first.unique, unclosed, fun hm => ?_, fun hm => ?_,
        columnAhead_bounds ht ahead⟩
      · exact columnAhead_eq_columnAt source (place hm)
      · obtain ⟨j, hj, hl, hk⟩ := innermost hm
        obtain ⟨t, htj, hlex⟩ : ∃ t, ts[j]? = some t ∧ t.lexeme = .symbol .opening := by simpa using hl
        refine ⟨j, t, hj, htj, hlex, ?_⟩
        rw [columnAhead_eq_columnAt source hk, columnAt, htj]

end

/-- The end behind a sum in a group of an argument. -/
theorem fault_at_first_impossible_open_group : ∃ ts, tokens "f((1 + x" = .ok ts ∧
    Expr.parseWithin 10 "f((1 + x" = .error (.grammar .unmatchedOpening 3) ∧
    FirstImpossible (ts.map (·.lexeme)) ts.length := by
  have ht : tokens "f((1 + x" = .ok [⟨.name "f", 1⟩, ⟨.symbol .opening, 2⟩, ⟨.symbol .opening, 3⟩,
      ⟨.number ⟨['1'], none⟩, 4⟩, ⟨.symbol .plus, 6⟩, ⟨.name "x", 8⟩] := rfl
  have hparse : Expr.parseWithin 10 "f((1 + x" = .error (.grammar .unmatchedOpening 3) := rfl
  have hfail : ∀ t, Expr.parseWithin 10 "f((1 + x" ≠ .ok t := fun t h => by cases hparse.symm.trans h
  rcases fault_at_first_impossible ht hfail with ⟨-, column, hdeep⟩ | ⟨fault, column, i, hp, hfirst, -, hend, -⟩
  · cases hparse.symm.trans hdeep
  · cases hparse.symm.trans hp
    obtain ⟨rfl, -⟩ := hend.mp rfl
    exact ⟨_, ht, hparse, hfirst⟩

end Calculator.Grammar
