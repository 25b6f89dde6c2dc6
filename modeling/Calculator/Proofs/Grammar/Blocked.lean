import Calculator.Proofs.Grammar.Impossible
import Calculator.Proofs.Grammar.Openings
import Calculator.Proofs.Token.Lexeme

/-!
# How reading can fail

`Blocked` describes a failure: what lies before the lexeme concerned begins a derivation, and no derivation goes on with
the lexeme. `Blocked.within`: a failure within a part is one of the whole.
-/

namespace Calculator.Grammar

/-! ## Beginnings of derivations -/

/-- The lexemes begin a derivation of which the rest can be written. -/
def Begins (nt : Nonterminal) (read : List Lexeme) : Prop :=
  ∃ (d : Derivation nt) (more : List Lexeme), d.lexemes = read ++ more ∧ ∀ l ∈ more, l.isWritten = true

section
variable {nt nt' : Nonterminal}

theorem begins_lexemes (d : Derivation nt) : Begins nt d.lexemes :=
  ⟨d, [], (List.append_nil _).symm, by simp⟩

theorem Begins.within {read : List Lexeme} (h : Begins nt read) {before behind : List Lexeme}
    (f : Derivation nt → Derivation nt') (hf : ∀ d, (f d).lexemes = before ++ (d.lexemes ++ behind))
    (hb : ∀ l ∈ behind, l.isWritten = true) : Begins nt' (before ++ read) := by
  obtain ⟨d, more, hd, hm⟩ := h
  refine ⟨f d, more ++ behind, by rw [hf, hd]; simp, fun l hl => ?_⟩
  exact (List.mem_append.mp hl).elim (hm l) (hb l)

theorem Begins.whole {read : List Lexeme} (h : Begins nt read) (f : Derivation nt → Derivation nt')
    (hf : ∀ d, (f d).lexemes = d.lexemes) : Begins nt' read := by
  obtain ⟨d, more, hd, hm⟩ := h
  exact ⟨f d, more, by rw [hf, hd], hm⟩

theorem begins_primary : Begins (.phrase .primary) [] :=
  ⟨.number ⟨['0'], none⟩, [.number ⟨['0'], none⟩], rfl, by decide⟩

theorem begins_chain (tier : Tier) (h : Begins (.phrase tier.operand) []) : Begins (.phrase (.chain tier)) [] :=
  h.whole (.chain · .done) fun _ => List.append_nil _

theorem begins_expression : Begins (.phrase (.chain .bitOr)) [] := by
  have power : Begins (.phrase .power) [] := begins_primary.whole .plain fun _ => rfl
  have unary : Begins (.phrase .unary) [] := power.whole .unsigned fun _ => rfl
  exact begins_chain .bitOr <| begins_chain .bitAnd <| begins_chain .sum <| begins_chain .product unary

end

/-! ## Failures -/

inductive Blocked (nt : Nonterminal) (ahead : List Lexeme) : GrammarError → Prop
  | deep (k : Nat) : Blocked nt ahead ⟨.tooDeep, k⟩
  | lexeme {read rest : List Lexeme} {l : Lexeme} {fault : GrammarFault} (split : ahead = read ++ l :: rest)
      (begins : Begins nt read) (impossible : Impossible nt read l) (here : fault ≠ .unmatchedOpening) :
      Blocked nt ahead ⟨fault, rest.length + 1⟩
  /-- The end comes where an operand is due. -/
  | finish (begins : Begins nt ahead) (due : ∀ l ∈ ahead.getLast?, endsOperand l = false) :
      Blocked nt ahead ⟨.unexpectedEnd, 0⟩
  /-- The end comes behind an operand within a parenthesis, which is the fault's place. -/
  | unclosed {before inside : List Lexeme} (split : ahead = before ++ .symbol .opening :: inside)
      (begins : Begins nt ahead) (closed : ∀ place opened, openings place opened inside = opened)
      (completes : CompletesOperand inside) : Blocked nt ahead ⟨.unmatchedOpening, inside.length + 1⟩

section
variable {nt nt' : Nonterminal} {after : List Lexeme} {e : GrammarError}

theorem Blocked.within (h : Blocked nt after e) {before behind : List Lexeme} (f : Derivation nt → Derivation nt')
    (hf : ∀ d, (f d).lexemes = before ++ (d.lexemes ++ behind)) (hb : ∀ l ∈ behind, l.isWritten = true)
    (hi : ∀ read l rest, after = read ++ l :: rest → Impossible nt read l → Impossible nt' (before ++ read) l)
    (hd : after = [] → ∀ l ∈ before.getLast?, endsOperand l = false) : Blocked nt' (before ++ after) e := by
  cases h with
  | deep k => exact .deep k
  | lexeme split begins impossible here =>
    refine .lexeme ?_ (begins.within f hf hb) (hi _ _ _ split impossible) here
    rw [split, List.append_assoc]
  | finish begins due =>
    refine .finish (begins.within f hf hb) fun l hl => ?_
    cases after with
    | nil => exact hd rfl l (by simpa using hl)
    | cons a after => exact due l (by simpa [List.getLast?_append, List.getLast?_cons] using hl)
  | @unclosed before' inside split begins closed completes =>
    have hs : before ++ after = (before ++ before') ++ .symbol .opening :: inside := by
      rw [split, List.append_assoc]
    exact .unclosed hs (begins.within f hf hb) closed completes

theorem Blocked.whole (h : Blocked nt after e) (f : Derivation nt → Derivation nt')
    (hf : ∀ d, (f d).lexemes = d.lexemes)
    (hi : ∀ read l rest, after = read ++ l :: rest → Impossible nt read l → Impossible nt' read l) :
    Blocked nt' after e := by
  have hf' : ∀ d, (f d).lexemes = [] ++ (d.lexemes ++ []) := fun d => by simp [hf]
  exact h.within f hf' (by simp) hi (by simp)

theorem Blocked.head {l : Lexeme} {rest : List Lexeme} {fault : GrammarFault} (begins : Begins nt [])
    (impossible : Impossible nt [] l) (here : fault ≠ .unmatchedOpening) :
    Blocked nt (l :: rest) ⟨fault, rest.length + 1⟩ := by
  have split : l :: rest = [] ++ l :: rest := rfl
  exact .lexeme split begins impossible here

end

/-! ## The faults of lexemes and of parentheses -/

theorem bind_eq_error {ε α β : Type} {x : Except ε α} {f : α → Except ε β} {e : ε} (h : x.bind f = .error e) :
    x = .error e ∨ ∃ a, x = .ok a ∧ f a = .error e := by
  cases x with
  | error e' => exact .inl (by cases h; rfl)
  | ok a => exact .inr ⟨a, rfl, h⟩

theorem unexpected_eq (α : Type) (l : Lexeme) (rest : List Lexeme) : ∃ fault, fault ≠ .unmatchedOpening ∧
    (Reader.unexpected (l :: rest) : Except GrammarError α) = .error ⟨fault, rest.length + 1⟩ := by
  by_cases hl : l = .symbol .closing
  · subst hl
    exact ⟨.unmatchedClosing, by decide, rfl⟩
  · refine ⟨.unexpected l, by simp, ?_⟩
    rw [Reader.unexpected]
    · rfl
    · exact hl

theorem close_eq_error {opened after : List Lexeme} {e : GrammarError} (h : Reader.close opened after = .error e) :
    after = [] ∧ e = ⟨.unmatchedOpening, opened.length⟩ ∨
      ∃ l rest fault, after = l :: rest ∧ l ≠ .symbol .closing ∧ fault ≠ .unmatchedOpening ∧
        e = ⟨fault, rest.length + 1⟩ := by
  cases after with
  | nil => exact .inl ⟨rfl, by cases h; rfl⟩
  | cons l rest =>
    by_cases hl : l = .symbol .closing
    · subst hl
      cases h
    · obtain ⟨fault, hf, hu⟩ := unexpected_eq (List Lexeme) l rest
      have hclose : Reader.close opened (l :: rest) = Reader.unexpected (l :: rest) := by
        rw [Reader.close]
        · exact fun tail he => hl (List.cons.inj he).1
        · exact List.cons_ne_nil l rest
      rw [hclose, hu] at h
      cases h
      exact .inr ⟨l, rest, fault, rfl, hl, hf, rfl⟩

theorem blocked_close {nt : Nonterminal} (inside : Derivation nt) (f : Derivation nt → Derivation (.phrase .primary))
    {before : List Lexeme} (hf : ∀ d, (f d).lexemes = before ++ .symbol .opening :: (d.lexemes ++ [.symbol .closing]))
    {opened after : List Lexeme} (ho : opened.length = (inside.lexemes ++ after).length + 1)
    (hc : after = [] → CompletesOperand inside.lexemes)
    (hi : ∀ l tail, after = l :: tail → l ≠ .symbol .closing →
      Impossible (.phrase .primary) (before ++ .symbol .opening :: inside.lexemes) l)
    {e : GrammarError} (h : Reader.close opened after = .error e) :
    Blocked (.phrase .primary) (before ++ .symbol .opening :: (inside.lexemes ++ after)) e := by
  have hf' : ∀ d, (f d).lexemes = (before ++ [.symbol .opening]) ++ (d.lexemes ++ [.symbol .closing]) :=
    fun d => by rw [hf]; simp
  have hbegins := (begins_lexemes inside).within f hf' (by decide)
  rw [List.append_assoc, List.singleton_append] at hbegins
  rcases close_eq_error h with ⟨rfl, rfl⟩ | ⟨l, tail, fault, rfl, hl, hne, rfl⟩
  · rw [List.append_nil] at ho ⊢
    rw [ho]
    exact .unclosed rfl hbegins (openings_lexemes inside) (hc rfl)
  · exact .lexeme (by simp) hbegins (hi l tail rfl hl) hne

end Calculator.Grammar
