import Calculator.Proofs.Grammar.Openings
import Calculator.Proofs.Grammar.Reading

/-!
# Calls in texts

`writtenCalls` finds the calls of a text by its parentheses and commas alone, in the order in which they are closed.
`writtenCalls_of_parse`: these are the calls of the tree, those in the arguments of a call before the call itself.
-/

namespace Calculator

/-! ## Calls among lexemes -/

structure WrittenCall where
  function : String
  arguments : Nat
deriving DecidableEq, Inhabited

/-- An open parenthesis: the name right before it, if there is one, and the commas that belong to it so far. -/
structure OpenParenthesis where
  callee? : Option String
  commas : Nat

/-- What has been seen of a text. The parentheses left open are listed from the innermost on. -/
structure Seen where
  last? : Option Lexeme := none
  opened : List OpenParenthesis := []
  calls : List WrittenCall := []

def nameOf? : Option Lexeme → Option String
  | some (.name f) => some f
  | _ => none

/-- The call that a parenthesis belongs to if it is closed behind `last?`. -/
def OpenParenthesis.call? (p : OpenParenthesis) (last? : Option Lexeme) : Option WrittenCall :=
  p.callee?.map fun f => ⟨f, if last? = some (.symbol .opening) then 0 else p.commas + 1⟩

def addCommas (n : Nat) : List OpenParenthesis → List OpenParenthesis
  | [] => []
  | p :: ps => { p with commas := p.commas + n } :: ps

def Seen.next (seen : Seen) (l : Lexeme) : Seen :=
  match l with
  | .symbol .opening => { seen with last? := some l, opened := ⟨nameOf? seen.last?, 0⟩ :: seen.opened }
  | .symbol .comma => { seen with last? := some l, opened := addCommas 1 seen.opened }
  | .symbol .closing =>
    match seen.opened with
    | [] => { seen with last? := some l }
    | p :: ps => ⟨some l, ps, seen.calls ++ (p.call? seen.last?).toList⟩
  | _ => { seen with last? := some l }

/-- The calls that end among lexemes, each with the number of its arguments. -/
def writtenCalls (ls : List Lexeme) : List WrittenCall := (ls.foldl Seen.next {}).calls

def lastOr (ls : List Lexeme) (last? : Option Lexeme) : Option Lexeme := ls.getLast?.or last?

@[simp] theorem lastOr_nil (last? : Option Lexeme) : lastOr [] last? = last? := rfl

@[simp] theorem lastOr_cons (l : Lexeme) (ls : List Lexeme) (last? : Option Lexeme) :
    lastOr (l :: ls) last? = lastOr ls (some l) := by
  cases h : ls.getLast? <;> simp [lastOr, List.getLast?_cons, h]

@[simp] theorem lastOr_append (ls ms : List Lexeme) (last? : Option Lexeme) :
    lastOr (ls ++ ms) last? = lastOr ms (lastOr ls last?) := by
  rw [lastOr, List.getLast?_append, Option.or_assoc]
  rfl

@[simp] theorem addCommas_cons (n : Nat) (p : OpenParenthesis) (ps : List OpenParenthesis) :
    addCommas n (p :: ps) = { p with commas := p.commas + n } :: ps := rfl

@[simp] theorem addCommas_zero (ps : List OpenParenthesis) : addCommas 0 ps = ps := by
  cases ps <;> rfl

@[simp] theorem addCommas_addCommas (m n : Nat) (ps : List OpenParenthesis) :
    addCommas n (addCommas m ps) = addCommas (n + m) ps := by
  cases ps with
  | nil => rfl
  | cons p ps => simp only [addCommas, Nat.add_assoc, Nat.add_comm m n]

/-! ## Calls in trees -/

namespace Expr

mutual

@[simp] def calls : Expr → List WrittenCall
  | number _ => []
  | name _ => []
  | signed _ e => e.calls
  | binary _ l r => l.calls ++ r.calls
  | group e => e.calls
  | call f args => allCalls args ++ [⟨f, args.length⟩]
  | foreign _ => []

@[simp] def allCalls : List Expr → List WrittenCall
  | [] => []
  | e :: es => e.calls ++ allCalls es

end

@[simp] theorem calls_joinAll (links : List (Operator × Expr)) : ∀ left : Expr,
    (Grammar.joinAll left links).calls = left.calls ++ allCalls (links.map (·.2)) := by
  induction links with
  | nil => intro left; simp [Grammar.joinAll]
  | cons link links ih =>
    intro left
    have := ih (binary link.1 left link.2)
    rw [calls, List.append_assoc] at this
    exact this

end Expr

/-! ## From lexemes to trees -/

namespace Grammar
open Grammar.Derivation

/-- The commas of a derivation that are in no parentheses of its own. -/
@[simp] def Nonterminal.commas : (nt : Nonterminal) → nt.Value → Nat
  | phrase _, _ => 0
  | more _, _ => 0
  | arguments, es => es.length - 1
  | moreArguments, es => es.length

/-- No name stands right before what can begin with a parenthesis. -/
def Nonterminal.Follows : Nonterminal → Option Lexeme → Prop
  | phrase _, last? => nameOf? last? = none
  | arguments, last? => nameOf? last? = none
  | more _, _ => True
  | moreArguments, _ => True

@[simp] def Derivation.past {nt : Nonterminal} (d : Derivation nt) (seen : Seen) : Seen where
  last? := lastOr d.lexemes seen.last?
  opened := addCommas (nt.commas d.value) seen.opened
  calls := seen.calls ++ Expr.allCalls (nt.trees d.value)

theorem next_joins {tier : Tier} {s : Symbol} {op : Operator} (h : Joins tier s op) (seen : Seen) :
    seen.next (.symbol s) = { seen with last? := some (.symbol s) } := by
  cases h <;> rfl

theorem next_signs {s : Symbol} {sign : Sign} (h : Signs s sign) (seen : Seen) :
    seen.next (.symbol s) = { seen with last? := some (.symbol s) } := by
  cases h <;> rfl

theorem lastOr_someArguments (first : Expression) (more : Derivation .moreArguments) (last? : Option Lexeme) :
    lastOr (someArguments first more).lexemes last? ≠ some (.symbol .opening) := by
  obtain ⟨d, before, hd⟩ := completesOperand_moreArguments more (completesOperand_phrase first)
  obtain ⟨l, hl, hends⟩ := getLast?_primary d
  rw [lexemes, ← hd, lastOr_append, lastOr, hl, Option.some_or]
  intro h
  cases h
  cases hends

/-- A parenthesis behind the arguments of a call counts them all. -/
theorem call?_arguments (f : String) (args : Derivation .arguments) :
    OpenParenthesis.call? ⟨some f, Nonterminal.commas .arguments args.value⟩
      (lastOr args.lexemes (some (.symbol .opening))) = some ⟨f, args.value.length⟩ := by
  cases args with
  | noArguments => rfl
  | someArguments first more => simp only [OpenParenthesis.call?, lastOr_someArguments first more]; simp

theorem foldl_next {nt : Nonterminal} (d : Derivation nt) : ∀ {seen : Seen}, nt.Follows seen.last? →
    d.lexemes.foldl Seen.next seen = d.past seen := by
  induction d with
  | chain first more hf hm =>
    intro seen h
    rw [lexemes, List.foldl_append, hf h, hm trivial]
    simp
  | done =>
    intro seen _
    simp
  | link s op joins right more hr hm =>
    intro seen _
    rw [lexemes, List.foldl_cons, next_joins joins, List.foldl_append, hr, hm trivial]
    · simp
    · rfl
  | signed s sign signs operand ho =>
    intro seen _
    rw [lexemes, List.foldl_cons, next_signs signs, ho]
    · simp
    · rfl
  | unsigned power hp => exact hp
  | plain base hb => exact hb
  | raised base exponent hb he =>
    intro seen h
    rw [lexemes, List.foldl_append, hb h, List.foldl_cons, he]
    · simp [Seen.next]
    · rfl
  | number n =>
    intro seen _
    simp [Seen.next]
  | name n =>
    intro seen _
    simp [Seen.next]
  | call f args ha =>
    intro seen _
    rw [lexemes, List.foldl_cons, List.foldl_cons, List.foldl_append, ha]
    · have hcall := call?_arguments f args
      simp only [Nonterminal.commas] at hcall
      simp [Seen.next, nameOf?, hcall]
    · rfl
  | group inner hi =>
    intro seen h
    rw [lexemes, List.foldl_cons, List.foldl_append, hi, List.foldl_cons, List.foldl_nil]
    · replace h : nameOf? seen.last? = none := h
      simp [Seen.next, OpenParenthesis.call?, h]
    · rfl
  | noArguments =>
    intro seen _
    simp
  | someArguments first more hf hm =>
    intro seen h
    rw [lexemes, List.foldl_append, hf h, hm trivial]
    simp
  | noMore =>
    intro seen _
    simp
  | oneMore arg more ha hm =>
    intro seen _
    rw [lexemes, List.foldl_cons, List.foldl_append, ha, hm trivial]
    · simp [Seen.next]
    · rfl

theorem writtenCalls_lexemes (d : Expression) : writtenCalls d.lexemes = d.value.calls := by
  rw [writtenCalls, foldl_next]
  · simp
  · rfl

theorem writtenCalls_of_parse {limit : Nat} {source : String} {t : Expr} (h : Expr.parseWithin limit source = .ok t) :
    ∃ ts, tokens source = .ok ts ∧ writtenCalls (ts.map (·.lexeme)) = t.calls := by
  obtain ⟨ts, hts, d, hd, rfl⟩ := exists_derivation h
  exact ⟨ts, hts, by rw [← hd, writtenCalls_lexemes]⟩

example : writtenCalls [.name "f", .symbol .opening, .name "g", .symbol .opening, .symbol .closing, .symbol .comma,
    .symbol .opening, .name "x", .symbol .closing, .symbol .closing] = [⟨"g", 0⟩, ⟨"f", 2⟩] := by decide

end Grammar
end Calculator
