import Calculator.Proofs.Grammar.Completeness
import Calculator.Proofs.Grammar.Depth
import Calculator.Proofs.Grammar.Descent
import Calculator.Proofs.Token.Segmentation

/-!
# Readers and the cursor

`follows`: with any lexemes ahead, a run from the call of a routine on their tokens answers as its reader does, unless
that gives up at the limit of nesting. The cursor is then where the reader leaves lexemes over, and errors are at the
same places.

Main statement: `cursor_safe_and_advancing`.
-/

namespace Calculator.Descent
open Grammar

/-! ## Lexemes as items -/

def ofLexeme : Lexeme → Item
  | .number n => .number n.text
  | .name n => .name n
  | .symbol s => .symbol s

/-- The items of lexemes with an end mark behind them. -/
def ofLexemes (lexemes : List Lexeme) : List Item := lexemes.map ofLexeme ++ [.finish]

theorem text_ofLexeme (l : Lexeme) : (ofLexeme l).text = l.text := by cases l <;> rfl

theorem ofLexeme_ne_finish (l : Lexeme) : ofLexeme l ≠ .finish := by cases l <;> exact nofun

theorem symbolOf_text (s : Symbol) : symbolOf (String.singleton s.char) = .symbol s := by cases s <;> decide +kernel

theorem item_raw (t : Token) : item t.raw = ofLexeme t.lexeme := by
  obtain ⟨l, column⟩ := t
  cases l with
  | symbol s => exact symbolOf_text s
  | _ => rfl

/-- Lexemes that are a closing parenthesis if they have its text, and numerals that are converted to their values. -/
structure Legible (number? : String → Option Binary64) (lexemes : List Lexeme) : Prop where
  closing : ∀ l ∈ lexemes, l.text = ")" → l = .symbol .closing
  number : ∀ n, .number n ∈ lexemes → number? n.text = some n.value

/-! ## Places -/

def place (lexemes ahead : List Lexeme) : Nat := lexemes.length - ahead.length

/-- What the cursor is on with these lexemes ahead. -/
def next : List Lexeme → Item
  | [] => .finish
  | l :: _ => ofLexeme l

section
variable {lexemes ahead rest : List Lexeme}

theorem next_eq_symbol_iff {s : Symbol} : next ahead = .symbol s ↔ ahead.head? = some (.symbol s) := by
  cases ahead with
  | nil => simp [next]
  | cons l rest => cases l <;> simp [next, ofLexeme]

theorem suffix_tail {l : Lexeme} (h : l :: rest <:+ lexemes) : rest <:+ lexemes :=
  (List.suffix_cons l rest).trans h

theorem getElem?_place (h : ahead <:+ lexemes) : (ofLexemes lexemes)[place lexemes ahead]? = some (next ahead) := by
  obtain ⟨passed, rfl⟩ := h
  have hplace : place (passed ++ ahead) ahead = passed.length := by simp [place]
  rw [hplace, ofLexemes, List.map_append, List.append_assoc, List.getElem?_append_right (by simp)]
  cases ahead <;> simp [next]

theorem place_tail {l : Lexeme} (h : l :: rest <:+ lexemes) : place lexemes (l :: rest) + 1 = place lexemes rest := by
  have hle := h.length_le
  simp only [place, List.length_cons] at *
  omega

theorem exists_passed (h : ahead <:+ lexemes) (hr : rest <:+ lexemes) (hlt : place lexemes ahead < place lexemes rest) :
    ∃ passed, passed ≠ [] ∧ passed ++ rest = ahead := by
  have hle := h.length_le
  have hlength : rest.length < ahead.length := by
    simp only [place] at hlt
    omega
  obtain ⟨passed, rfl⟩ := List.suffix_of_suffix_length_le hr h hlength.le
  refine ⟨passed, ?_, rfl⟩
  rintro rfl
  exact absurd hlength (Nat.lt_irrefl _)

end

/-! ## Steps on the lexemes ahead -/

section
variable {number? : String → Option Binary64} {lexemes ahead : List Lexeme} {point : Point} {control : Control}

theorem step_at (h : ahead <:+ lexemes) (stack : List Frame) :
    step number? (ofLexemes lexemes) ⟨.look point, place lexemes ahead, stack⟩ =
      (point.act number? (place lexemes ahead) (next ahead)).map fun m =>
        ⟨m.control, if m.passes then place lexemes ahead + 1 else place lexemes ahead, m.frames ++ stack⟩ := by
  simp only [step, getElem?_place h]
  cases point.act number? (place lexemes ahead) (next ahead) <;> rfl

theorem step_stays (h : ahead <:+ lexemes) (frames stack : List Frame)
    (hact : point.act number? (place lexemes ahead) (next ahead) = .ok ⟨control, false, frames⟩) :
    Step number? (ofLexemes lexemes) ⟨.look point, place lexemes ahead, stack⟩
      ⟨control, place lexemes ahead, frames ++ stack⟩ := by
  rw [Step, step_at h, hact]
  rfl

theorem step_passes {l : Lexeme} {rest : List Lexeme} (h : l :: rest <:+ lexemes) (frames stack : List Frame)
    (hact : point.act number? (place lexemes (l :: rest)) (ofLexeme l) = .ok ⟨control, true, frames⟩) :
    Step number? (ofLexemes lexemes) ⟨.look point, place lexemes (l :: rest), stack⟩
      ⟨control, place lexemes rest, frames ++ stack⟩ := by
  rw [Step, step_at h, next, hact, ← place_tail h]
  rfl

theorem step_halts (h : ahead <:+ lexemes) (stack : List Frame) {halt : Halt}
    (hact : point.act number? (place lexemes ahead) (next ahead) = .error halt) :
    step number? (ofLexemes lexemes) ⟨.look point, place lexemes ahead, stack⟩ = .error halt := by
  rw [step_at h, hact]
  rfl

end

/-! ## Answers -/

def report (lexemes : List Lexeme) (e : GrammarError) : Halt :=
  match e.fault with
  | .unexpected l => .unexpected l.text (lexemes.length - e.ahead)
  | fault => .fault fault (lexemes.length - e.ahead)

/-- What becomes of a run that begins where a reader does: it comes to return what has been read to the calls that wait,
or it ends with the reader's error. The run has no limit of nesting. -/
def Answers (number? : String → Option Binary64) (lexemes : List Lexeme) (s : State) (stack : List Frame) :
    Except GrammarError (Expr × List Lexeme) → Prop
  | .ok (e, rest) => rest <:+ lexemes ∧ Steps number? (ofLexemes lexemes) s ⟨.returned e, place lexemes rest, stack⟩
  | .error err => err.fault = .tooDeep ∨ Ends number? (ofLexemes lexemes) s (report lexemes err)

section
variable {number? : String → Option Binary64} {lexemes : List Lexeme} {s s' : State} {stack : List Frame}
  {x : Except GrammarError (Expr × List Lexeme)}

theorem Ends.of_steps {items : List Item} {h : Halt} (he : Ends number? items s' h) (hs : Steps number? items s s') :
    Ends number? items s h := by
  obtain ⟨t, hsteps, hhalt⟩ := he
  exact ⟨t, hs.trans hsteps, hhalt⟩

theorem Answers.of_steps (ha : Answers number? lexemes s' stack x) (hs : Steps number? (ofLexemes lexemes) s s') :
    Answers number? lexemes s stack x := by
  cases x with
  | error err => exact ha.imp_right (·.of_steps hs)
  | ok p => exact ⟨ha.1, hs.trans ha.2⟩

theorem Answers.head (ha : Answers number? lexemes s' stack x) (hs : Step number? (ofLexemes lexemes) s s') :
    Answers number? lexemes s stack x :=
  ha.of_steps (.single hs)

/-- The call that waits goes on with what is returned to it. -/
theorem Answers.bind {frame : Frame} {f : Expr × List Lexeme → Except GrammarError (Expr × List Lexeme)}
    (ha : Answers number? lexemes s (frame :: stack) x)
    (hf : ∀ e rest, x = .ok (e, rest) → rest <:+ lexemes →
      Answers number? lexemes ⟨frame.resume e, place lexemes rest, stack⟩ stack (f (e, rest))) :
    Answers number? lexemes s stack (x.bind f) := by
  cases x with
  | error err => exact ha
  | ok p =>
    have hresume : Step number? (ofLexemes lexemes) ⟨.returned p.1, place lexemes p.2, frame :: stack⟩
        ⟨frame.resume p.1, place lexemes p.2, stack⟩ := rfl
    exact (hf p.1 p.2 rfl ha.1).of_steps (ha.2.tail hresume)

theorem answers_returned {rest : List Lexeme} (h : rest <:+ lexemes) (e : Expr) :
    Answers number? lexemes ⟨.returned e, place lexemes rest, stack⟩ stack (.ok (e, rest)) := ⟨h, .refl⟩

variable {point : Point} {ahead : List Lexeme}

theorem answers_fault (h : ahead <:+ lexemes) {err : GrammarError} (stack' : List Frame)
    (hact : point.act number? (place lexemes ahead) (next ahead) = .error (report lexemes err)) :
    Answers number? lexemes ⟨.look point, place lexemes ahead, stack'⟩ stack (.error err) :=
  .inr ⟨_, .refl, step_halts h stack' hact⟩

theorem unexpected_report (hl : Legible number? lexemes) (h : ahead <:+ lexemes) : ∃ err,
    (∀ α : Type, (Reader.unexpected ahead : Except GrammarError α) = .error err) ∧
      unexpected (place lexemes ahead) (next ahead) = .error (report lexemes err) := by
  cases ahead with
  | nil => exact ⟨⟨.unexpectedEnd, 0⟩, fun _ => rfl, rfl⟩
  | cons l rest =>
    by_cases hclosing : l = .symbol .closing
    · subst hclosing
      exact ⟨⟨.unmatchedClosing, rest.length + 1⟩, fun _ => rfl, rfl⟩
    · have htext : (ofLexeme l).text ≠ ")" := by
        rw [text_ofLexeme]
        exact fun he => hclosing (hl.closing l (h.subset List.mem_cons_self) he)
      refine ⟨⟨.unexpected l, rest.length + 1⟩, fun _ => ?_, ?_⟩
      · rw [Reader.unexpected]
        · rfl
        · exact hclosing
      · rw [next, unexpected, if_neg (ofLexeme_ne_finish l), if_neg htext, text_ofLexeme]
        rfl

end

/-! ## Routines and readers -/

/-- With any lexemes ahead, the run from a routine answers as the reader. -/
def Follows (number? : String → Option Binary64) (lexemes : List Lexeme) (control : Control) (r : Reader Expr) : Prop :=
  ∀ ahead stack, ahead <:+ lexemes → Answers number? lexemes ⟨control, place lexemes ahead, stack⟩ stack (r ahead)

section
variable {number? : String → Option Binary64} {lexemes ahead rest : List Lexeme}

theorem Follows.passed {control : Control} {r : Reader Expr} (hf : Follows number? lexemes control r)
    (hcall : control.isCall = true) (h : ahead <:+ lexemes) {e : Expr} (hr : r ahead = .ok (e, rest)) :
    ∃ passed, passed ≠ [] ∧ passed ++ rest = ahead := by
  have hanswers := hf ahead [] h
  rw [hr] at hanswers
  exact exists_passed h hanswers.1 (lt_of_returned hcall hanswers.2)

theorem Follows.length_lt {control : Control} {r : Reader Expr} (hf : Follows number? lexemes control r)
    (hcall : control.isCall = true) (h : ahead <:+ lexemes) {e : Expr} (hr : r ahead = .ok (e, rest)) :
    rest.length < ahead.length := by
  obtain ⟨passed, hne, rfl⟩ := hf.passed hcall h hr
  have hpos := List.length_pos_iff.mpr hne
  rw [List.length_append]
  omega

end

/-! ## Chains -/

section
variable {number? : String → Option Binary64} {lexemes ahead : List Lexeme} {tier : Tier}

theorem act_link {s : Symbol} {op : Operator} (joins : Joins tier s op) (position : Nat) (left : Expr) :
    (Point.links tier left).act number? position (.symbol s) =
      .ok ⟨.call tier.operand, true, [.right tier op left]⟩ := by
  cases joins <;> rfl

theorem act_links_stop (h : ∀ s op, Joins tier s op → ahead.head? ≠ some (.symbol s)) (position : Nat) (left : Expr) :
    (Point.links tier left).act number? position (next ahead) = stay (.returned left) := by
  cases ahead with
  | nil => rfl
  | cons l rest =>
    cases l with
    | symbol s =>
      by_cases hs : s ∈ linkSymbols tier
      · obtain ⟨op, hop⟩ := exists_operator hs
        exact absurd rfl (h s op (Tier.operator?_eq_some_iff.mp hop))
      · simp only [next, ofLexeme, Point.act, if_neg hs]
    | _ => rfl

variable {operand : Reader Expr} (ho : Follows number? lexemes (.call tier.operand) operand)
include ho

theorem chainFrom_follows (stack : List Frame) : ∀ (room : Nat) (left : Expr) (ahead : List Lexeme),
    ahead.length ≤ room → ahead <:+ lexemes →
      Answers number? lexemes ⟨.look (.links tier left), place lexemes ahead, stack⟩ stack
        (Reader.chainFrom tier.operator? operand room left ahead) := by
  -- every link passes a lexeme, so the room stays large enough
  intro room
  induction room with
  | zero =>
    intro left ahead hroom h
    obtain rfl := List.length_eq_zero_iff.mp (Nat.le_zero.mp hroom)
    exact (answers_returned h left).head (step_stays h [] stack rfl)
  | succ room ih =>
    intro left ahead hroom h
    rcases linked_or_not tier ahead with ⟨s, op, rest, joins, rfl⟩ | hstop
    · rw [chainFrom_link joins]
      have hrest := suffix_tail h
      refine Answers.head (Answers.bind (ho rest _ hrest) ?_)
        (step_passes h [.right tier op left] stack (act_link joins _ left))
      intro e after hread hafter
      have hlt := ho.length_lt (isCall_call _) hrest hread
      exact ih _ after (by simp only [List.length_cons] at hroom; omega) hafter
    · rw [chainFrom_stop hstop]
      exact (answers_returned h left).head (step_stays h [] stack (act_links_stop hstop _ left))

theorem chain_follows : Follows number? lexemes (.chain tier) (Reader.chain tier.operator? lexemes.length operand) := by
  intro ahead stack h
  have hstep : Step number? (ofLexemes lexemes) ⟨.chain tier, place lexemes ahead, stack⟩
      ⟨.call tier.operand, place lexemes ahead, .first tier :: stack⟩ := rfl
  rw [chain_eq]
  refine Answers.head (Answers.bind (ho ahead _ h) ?_) hstep
  exact fun e rest _ hrest => chainFrom_follows ho stack _ e rest hrest.length_le hrest

end

/-! ## Arguments and parentheses -/

section
variable {number? : String → Option Binary64} {lexemes ahead : List Lexeme} {inner : Reader Expr} (stack : List Frame)

theorem close_follows (hl : Legible number? lexemes) (opened : List Lexeme) (e : Expr) (h : ahead <:+ lexemes) :
    Answers number? lexemes ⟨.look (.close (place lexemes opened) e), place lexemes ahead, stack⟩ stack
      ((Reader.close opened ahead).bind fun after => .ok (e, after)) := by
  cases ahead with
  | nil => exact answers_fault h stack rfl
  | cons l rest =>
    by_cases hclosing : l = .symbol .closing
    · subst hclosing
      exact (answers_returned (suffix_tail h) e).head (step_passes h [] stack rfl)
    · obtain ⟨err, hread, hact⟩ := unexpected_report hl h
      have hclose : Reader.close opened (l :: rest) = .error err := by
        rw [Reader.close, hread]
        · exact fun tail he => hclosing (List.cons.inj he).1
        · exact List.cons_ne_nil l rest
      rw [hclose]
      refine answers_fault h stack ?_
      rw [← hact, Point.act]
      · exact fun he => hclosing (Option.some.inj (next_eq_symbol_iff.mp he))
      · exact ofLexeme_ne_finish l

variable (hi : Follows number? lexemes (.chain .bitOr) inner)
include hi

theorem argument_follows : Follows number? lexemes (.look .argument) (Reader.argument inner) := by
  intro ahead stack h
  by_cases hcomma : ahead.head? = some (.symbol .comma)
  · obtain ⟨rest, rfl⟩ := List.head?_eq_some_iff.mp hcomma
    exact answers_fault h stack rfl
  · by_cases hclosing : ahead.head? = some (.symbol .closing)
    · obtain ⟨rest, rfl⟩ := List.head?_eq_some_iff.mp hclosing
      exact answers_fault h stack rfl
    · have hread : Reader.argument inner ahead = inner ahead := by
        rw [Reader.argument]
        · rintro rest rfl
          exact hcomma rfl
        · rintro rest rfl
          exact hclosing rfl
      rw [hread]
      refine (hi ahead stack h).head (step_stays h [] stack ?_)
      rw [Point.act]
      · rfl
      · exact fun he => hcomma (next_eq_symbol_iff.mp he)
      · exact fun he => hclosing (next_eq_symbol_iff.mp he)

variable (hl : Legible number? lexemes)
include hl

def endCall (f : String) (opened : List Lexeme) (p : List Expr × List Lexeme) :
    Except GrammarError (Expr × List Lexeme) :=
  (Reader.close opened p.2).bind fun after => .ok (.call f p.1, after)

theorem argumentsFrom_follows (f : String) (opened : List Lexeme) :
    ∀ (room : Nat) (read : List Expr) (ahead : List Lexeme), ahead.length ≤ room → ahead <:+ lexemes →
      Answers number? lexemes ⟨.look (.moreArguments f (place lexemes opened) read), place lexemes ahead, stack⟩ stack
        ((Reader.argumentsFrom inner room read ahead).bind (endCall f opened)) := by
  intro room
  induction room with
  | zero =>
    intro read ahead hroom h
    obtain rfl := List.length_eq_zero_iff.mp (Nat.le_zero.mp hroom)
    exact (close_follows stack hl opened _ h).head (step_stays h [] stack rfl)
  | succ room ih =>
    intro read ahead hroom h
    by_cases hcomma : ahead.head? = some (.symbol .comma)
    · obtain ⟨rest, rfl⟩ := List.head?_eq_some_iff.mp hcomma
      have hrest := suffix_tail h
      rw [argumentsFrom_comma, bind_bind]
      refine Answers.head (Answers.bind (argument_follows hi rest _ hrest) ?_)
        (step_passes h [.argument f (place lexemes opened) read] stack rfl)
      intro e after hread hafter
      have hlt := (argument_follows hi).length_lt rfl hrest hread
      exact ih _ after (by simp only [List.length_cons] at hroom; omega) hafter
    · rw [argumentsFrom_stop hcomma]
      refine (close_follows stack hl opened _ h).head (step_stays h [] stack ?_)
      rw [Point.act]
      · rfl
      · exact fun he => hcomma (next_eq_symbol_iff.mp he)

theorem call_follows (f : String) (opened : List Lexeme) (h : ahead <:+ lexemes) :
    Answers number? lexemes ⟨.look (.arguments f (place lexemes opened)), place lexemes ahead, stack⟩ stack
      ((Reader.arguments lexemes.length inner ahead).bind (endCall f opened)) := by
  by_cases hclosing : ahead.head? = some (.symbol .closing)
  · obtain ⟨rest, rfl⟩ := List.head?_eq_some_iff.mp hclosing
    exact (close_follows stack hl opened _ h).head (step_stays h [] stack rfl)
  · rw [arguments_some hclosing, bind_bind]
    refine Answers.head (Answers.bind (argument_follows hi ahead _ h) ?_)
      (step_stays h [.argument f (place lexemes opened) []] stack ?_)
    · exact fun e rest _ hrest => argumentsFrom_follows stack hi hl f opened _ [e] rest hrest.length_le hrest
    · rw [Point.act]
      exact fun he => hclosing (next_eq_symbol_iff.mp he)

end

/-! ## Operands -/

section
variable {number? : String → Option Binary64} {lexemes : List Lexeme} {inner : Reader Expr}
  (hl : Legible number? lexemes) (hi : Follows number? lexemes (.chain .bitOr) inner)
include hl

theorem other_follows {ahead : List Lexeme} (hother : ∀ l ∈ ahead.head?, startsPrimary l = false) (stack : List Frame)
    (h : ahead <:+ lexemes) : Answers number? lexemes ⟨.look .primary, place lexemes ahead, stack⟩ stack
      (Reader.unexpected ahead) := by
  obtain ⟨err, hread, hact⟩ := unexpected_report hl h
  rw [hread]
  refine answers_fault h stack ?_
  rw [← hact]
  cases ahead with
  | nil => rfl
  | cons l rest =>
    cases l with
    | symbol s =>
      rw [next, ofLexeme, Point.act]
      · exact nofun
      · exact nofun
      · rintro ⟨⟩
        exact absurd (hother _ rfl) (by decide)
    | _ => exact absurd (hother _ rfl) (by simp [startsPrimary])

include hi

theorem name_follows (f : String) (rest : List Lexeme) (stack : List Frame) (h : .name f :: rest <:+ lexemes) :
    Answers number? lexemes ⟨.look .primary, place lexemes (.name f :: rest), stack⟩ stack
      (Reader.primary lexemes.length inner (.name f :: rest)) := by
  have hrest := suffix_tail h
  refine Answers.head ?_ (step_passes h [] stack rfl)
  by_cases hopening : rest.head? = some (.symbol .opening)
  · obtain ⟨tail, rfl⟩ := List.head?_eq_some_iff.mp hopening
    rw [primary_call]
    exact (call_follows stack hi hl f (.symbol .opening :: tail) (suffix_tail hrest)).head
      (step_passes hrest [] stack rfl)
  · rw [primary_name hopening]
    refine (answers_returned hrest _).head (step_stays hrest [] stack ?_)
    rw [Point.act]
    · rfl
    · exact fun he => hopening (next_eq_symbol_iff.mp he)

theorem group_follows (rest : List Lexeme) (stack : List Frame) (h : .symbol .opening :: rest <:+ lexemes) :
    Answers number? lexemes ⟨.look .primary, place lexemes (.symbol .opening :: rest), stack⟩ stack
      (Reader.primary lexemes.length inner (.symbol .opening :: rest)) := by
  have hrest := suffix_tail h
  refine Answers.head ?_ (step_passes h [] stack rfl)
  by_cases hclosing : rest.head? = some (.symbol .closing)
  · obtain ⟨tail, rfl⟩ := List.head?_eq_some_iff.mp hclosing
    exact answers_fault hrest stack rfl
  · rw [primary_group hclosing]
    refine Answers.head (Answers.bind (hi rest _ hrest) ?_)
      (step_stays hrest [.group (place lexemes (.symbol .opening :: rest))] stack ?_)
    · exact fun e after _ hafter => close_follows stack hl _ (.group e) hafter
    · rw [Point.act]
      · rfl
      · exact fun he => hclosing (next_eq_symbol_iff.mp he)

theorem primary_follows : Follows number? lexemes (.look .primary) (Reader.primary lexemes.length inner) := by
  intro ahead stack h
  cases ahead with
  | nil => exact other_follows hl (by simp) stack h
  | cons l rest =>
    cases l with
    | number n =>
      have hact : Point.primary.act number? (place lexemes (.number n :: rest)) (.number n.text) =
          pass (.returned (.number n.value)) := by
        simp only [Point.act, hl.number n (h.subset List.mem_cons_self)]
      exact (answers_returned (suffix_tail h) _).head (step_passes h [] stack hact)
    | name f => exact name_follows hl hi f rest stack h
    | symbol s =>
      by_cases hs : s = .opening
      · subst hs
        exact group_follows hl hi rest stack h
      · have hother : ∀ l ∈ (Lexeme.symbol s :: rest).head?, startsPrimary l = false := by
          simpa [startsPrimary] using hs
        rw [primary_other hother]
        exact other_follows hl hother stack h

end

section
variable {number? : String → Option Binary64} {lexemes : List Lexeme} {operand : Reader Expr}
  (ho : Follows number? lexemes (.look .unary) operand)
include ho

theorem raise_follows (stack : List Frame) (base : Expr) (ahead : List Lexeme) (h : ahead <:+ lexemes) :
    Answers number? lexemes ⟨.look (.behindBase base), place lexemes ahead, stack⟩ stack
      (raise operand (base, ahead)) := by
  unfold raise
  split
  · rename_i rest heq
    cases heq
    exact answers_fault h stack rfl
  · rename_i rest heq
    cases heq
    refine Answers.head (Answers.bind (ho rest _ (suffix_tail h)) ?_) (step_passes h [.exponent base] stack rfl)
    exact fun e after _ hafter => answers_returned hafter _
  · rename_i base' after hopening hcaret heq
    cases heq
    refine (answers_returned h base).head (step_stays h [] stack ?_)
    rw [Point.act]
    · rfl
    · intro he
      obtain ⟨tail, rfl⟩ := List.head?_eq_some_iff.mp (next_eq_symbol_iff.mp he)
      exact hopening tail rfl
    · intro he
      obtain ⟨tail, rfl⟩ := List.head?_eq_some_iff.mp (next_eq_symbol_iff.mp he)
      exact hcaret tail rfl

theorem chainPhrase_follows (tier : Tier) :
    Follows number? lexemes (.chain tier) ((Phrase.chain tier).reader lexemes.length operand) := by
  have product : Follows number? lexemes (.chain .product) _ := chain_follows ho
  have sum : Follows number? lexemes (.chain .sum) _ := chain_follows product
  have and : Follows number? lexemes (.chain .bitAnd) _ := chain_follows sum
  cases tier with
  | bitOr => exact chain_follows and
  | bitAnd => exact and
  | sum => exact sum
  | product => exact product

theorem power_follows (hl : Legible number? lexemes) :
    Follows number? lexemes .power (Reader.power lexemes.length operand) := by
  intro ahead stack h
  have hstep : Step number? (ofLexemes lexemes) ⟨.power, place lexemes ahead, stack⟩
      ⟨.look .primary, place lexemes ahead, .power :: stack⟩ := rfl
  rw [power_eq]
  refine Answers.head (Answers.bind (primary_follows hl (chainPhrase_follows ho .bitOr) ahead _ h) ?_) hstep
  exact fun base rest _ hrest => raise_follows ho stack base rest hrest

end

section
variable {number? : String → Option Binary64} {lexemes : List Lexeme}

theorem act_unsigned {ahead : List Lexeme} (h : ∀ s sign, Signs s sign → ahead.head? ≠ some (.symbol s))
    (position : Nat) : Point.unary.act number? position (next ahead) = stay .power := by
  cases ahead with
  | nil => rfl
  | cons l rest =>
    cases l with
    | symbol s =>
      by_cases hs : s ∈ signSymbols
      · obtain ⟨sign, hsign⟩ := exists_sign hs
        exact absurd rfl (h s sign (sign?_eq_some_iff.mp hsign))
      · simp only [next, ofLexeme, Point.act, if_neg hs]
        rfl
    | _ => rfl

theorem operand_follows (hl : Legible number? lexemes) : ∀ limit : Nat,
    Follows number? lexemes (.look .unary) (Reader.operand lexemes.length limit) := by
  intro limit
  induction limit with
  | zero => exact fun ahead stack h => .inl rfl
  | succ limit ih =>
    intro ahead stack h
    rcases signed_or_not ahead with ⟨s, sign, rest, signs, rfl⟩ | hunsigned
    · rw [operand_signed signs]
      have hact : Point.unary.act number? (place lexemes (.symbol s :: rest)) (.symbol s) =
          .ok ⟨.look .unary, true, [.signed sign]⟩ := by cases signs <;> rfl
      refine Answers.head (Answers.bind (ih rest _ (suffix_tail h)) ?_) (step_passes h _ stack hact)
      exact fun e after _ hafter => answers_returned hafter _
    · rw [operand_unsigned hunsigned]
      exact (power_follows ih hl ahead stack h).head (step_stays h [] stack (act_unsigned hunsigned _))

end

/-! ## Whole texts -/

inductive Routine where
  | phrase (p : Phrase)
  | argument

def Routine.control : Routine → Control
  | phrase p => .call p
  | argument => .look .argument

def Routine.reader (room limit : Nat) : Routine → Reader Expr
  | phrase p => p.reader room (Reader.operand room limit)
  | argument => Reader.argument (Reader.expression room (Reader.operand room limit))

theorem isCall_control (r : Routine) : r.control.isCall = true := by
  cases r with
  | phrase p => exact isCall_call p
  | argument => rfl

def behindAll : Expr × List Lexeme → Except GrammarError Expr
  | (e, []) => .ok e
  | (_, ahead) => Reader.unexpected ahead

/-- The end of a run over a whole text. -/
def verdict (lexemes : List Lexeme) : Except GrammarError Expr → Halt
  | .ok e => .parsed e
  | .error err => report lexemes err

def start : State := ⟨.look .start, 0, []⟩

section
variable {number? : String → Option Binary64} {lexemes : List Lexeme} (hl : Legible number? lexemes) (limit : Nat)

include hl in
theorem follows (r : Routine) : Follows number? lexemes r.control (r.reader lexemes.length limit) := by
  have unary := operand_follows hl limit
  have expression := chainPhrase_follows unary .bitOr
  cases r with
  | argument => exact argument_follows expression
  | phrase p =>
    cases p with
    | chain tier => exact chainPhrase_follows unary tier
    | unary => exact unary
    | power => exact power_follows unary hl
    | primary => exact primary_follows hl expression

theorem ofLexemes_eq (hne : lexemes ≠ []) : Expr.ofLexemes limit lexemes =
    (Reader.expression lexemes.length (Reader.operand lexemes.length limit) lexemes).bind behindAll := by
  rw [Expr.ofLexemes]
  · split
    · rename_i h; rw [h]; rfl
    · rename_i h; rw [h]; rfl
    · rename_i e ahead hahead h
      rw [h, Except.bind, behindAll]
      exact hahead
  · exact hne

include hl

theorem ends_behindAll {ahead : List Lexeme} (h : ahead <:+ lexemes) (e : Expr) : Ends number? (ofLexemes lexemes)
    ⟨.returned e, place lexemes ahead, []⟩ (verdict lexemes (behindAll (e, ahead))) := by
  refine ⟨⟨.look (.finish e), place lexemes ahead, []⟩, .single rfl, step_halts h [] ?_⟩
  cases ahead with
  | nil => rfl
  | cons l rest =>
    obtain ⟨err, hread, hact⟩ := unexpected_report hl h
    rw [behindAll, hread]
    · rw [Point.act]
      · exact hact
      · exact ofLexeme_ne_finish l
    · exact List.cons_ne_nil l rest

theorem ends_ofLexemes : (∃ k, Expr.ofLexemes limit lexemes = .error ⟨.tooDeep, k⟩) ∨
    Ends number? (ofLexemes lexemes) start (verdict lexemes (Expr.ofLexemes limit lexemes)) := by
  by_cases hne : lexemes = []
  · subst hne
    exact .inr ⟨start, .refl, rfl⟩
  · have hstart : Step number? (ofLexemes lexemes) start ⟨.chain .bitOr, place lexemes lexemes, []⟩ := by
      obtain ⟨l, rest, rfl⟩ := List.exists_cons_of_ne_nil hne
      have hplace : place (l :: rest) (l :: rest) = 0 := Nat.sub_self _
      rw [hplace]
      cases l <;> rfl
    have hanswers := (follows hl limit (.phrase (.chain .bitOr)) lexemes [] (List.suffix_refl _)).head hstart
    rw [ofLexemes_eq limit hne]
    revert hanswers
    simp only [Routine.reader, Phrase.reader]
    cases Reader.expression lexemes.length (Reader.operand lexemes.length limit) lexemes with
    | error err =>
      intro hanswers
      refine hanswers.imp_left fun hdeep => ⟨err.ahead, ?_⟩
      rw [← hdeep]
      rfl
    | ok p =>
      intro hanswers
      exact .inr ((ends_behindAll hl hanswers.1 p.1).of_steps hanswers.2)

end

/-! ## Tokens of a text -/

theorem items_append {front : List RawToken} {last : RawToken} (h : last.type = "EOF") :
    items (front ++ [last]) = items front ++ [.finish] := by
  simp [items, item, h]

theorem items_tokenize {source : String} {ts : List Token} {raws : List RawToken} (ht : tokens source = .ok ts)
    (hr : tokenize source = .ok raws) : items raws = ofLexemes (ts.map (·.lexeme)) := by
  rw [tokenize, ht] at hr
  obtain rfl := Except.ok.inj hr
  rw [items_append rfl, items, ofLexemes, List.map_map, List.map_map]
  exact congrArg (· ++ _) (List.map_congr_left fun t _ => item_raw t)

theorem legible_tokens {number? : String → Option Binary64}
    (hn : ∀ n : Numeral, n.isSpelling = true → number? n.text = some n.value) {source : String} {ts : List Token}
    (ht : tokens source = .ok ts) : Legible number? (ts.map (·.lexeme)) := by
  have hwritten : ∀ l ∈ ts.map (·.lexeme), l.isWritten = true :=
    List.forall_mem_map.mpr (tokens_eq_ok_iff.mp ht).isWritten
  constructor
  · intro l hl htext
    have hread : Lexeme.read ')' [] = .ok l :=
      Lexeme.read_complete (hwritten l hl) (congrArg String.toList htext) (by simp [Lexeme.StopsAt])
    exact (Except.ok.inj hread).symm
  · intro n hl
    have hspelled := hwritten _ hl
    rw [Lexeme.isWritten, Bool.and_eq_true] at hspelled
    exact hn n hspelled.1

/-- For all tokens before an end mark: no step needs a token behind the mark, passes the mark or misses an entry of a
table, and every run ends. A routine that returns has passed a token, as has whatever comes round to a call or to the
head of a loop again. All of this is so of the library's readers: what they return, the routines return, and lexemes
read as a whole end the run as they end reading, unless the limit of nesting is met. The tokens of a text are such. -/
theorem cursor_safe_and_advancing (number? : String → Option Binary64) (front : List RawToken) {last : RawToken}
    (hlast : last.type = "EOF") :
    let given := items (front ++ [last])
    (∀ s : State, s.position ≤ front.length →
      step number? given s ≠ .error .outOfRange ∧ step number? given s ≠ .error .noEntry ∧
        (∀ s', Step number? given s s' → s'.position ≤ front.length) ∧
        ∃ h, Ends number? given s h ∧ h ≠ .outOfRange ∧ h ≠ .noEntry) ∧
    (∀ (r : Routine) (position position' : Nat) (stack : List Frame) (e : Expr), position ≤ front.length →
      Steps number? given ⟨r.control, position, stack⟩ ⟨.returned e, position', stack⟩ →
        position < position' ∧ position' ≤ front.length) ∧
    (∀ (r : Routine) (position position' : Nat) (stack stack' : List Frame),
      Relation.TransGen (Step number? given) ⟨r.control, position, stack⟩ ⟨r.control, position', stack'⟩ →
        position < position') ∧
    (∀ (point point' : Point) (position position' : Nat) (stack : List Frame), point.SameLoop point' →
      Relation.TransGen (Step number? given) ⟨.look point, position, stack⟩ ⟨.look point', position', stack⟩ →
        position < position') ∧
    (∀ lexemes : List Lexeme, given = ofLexemes lexemes → Legible number? lexemes → ∀ limit : Nat,
      (∀ (r : Routine) (ahead rest : List Lexeme) (e : Expr), ahead <:+ lexemes →
        r.reader lexemes.length limit ahead = .ok (e, rest) →
          (∃ passed, passed ≠ [] ∧ passed ++ rest = ahead) ∧ ∀ stack : List Frame, Steps number? given
            ⟨r.control, place lexemes ahead, stack⟩ ⟨.returned e, place lexemes rest, stack⟩) ∧
      (limit ≤ lexemes.length ∧ (∃ k, Expr.ofLexemes limit lexemes = .error ⟨.tooDeep, k⟩) ∨
        Ends number? given start (verdict lexemes (Expr.ofLexemes limit lexemes)))) ∧
    ∀ source ts, tokens source = .ok ts → tokenize source = .ok (front ++ [last]) →
      (∀ n : Numeral, n.isSpelling = true → number? n.text = some n.value) →
        given = ofLexemes (ts.map (·.lexeme)) ∧ Legible number? (ts.map (·.lexeme)) := by
  have hlength : (items front).length = front.length := List.length_map _
  intro given
  have hgiven : given = items front ++ [.finish] := items_append hlast
  refine ⟨fun s hs => ?_, fun r position position' stack e hp hsteps => ?_, fun r _ _ _ _ => ?_, fun _ _ _ _ _ => ?_,
    fun lexemes hlexemes hl limit => ⟨fun r ahead rest e h hread => ?_, ?_⟩, fun source ts ht hr hn => ?_⟩
  · rw [hgiven]
    rw [← hlength] at hs ⊢
    obtain ⟨hrange, hentry, hle⟩ := @step_inBounds number? _ _ hs
    obtain ⟨h, hends⟩ := exists_ends number? (items front ++ [.finish]) s
    exact ⟨hrange, hentry, hle, h, hends, ends_inBounds hends hs⟩
  · refine ⟨lt_of_returned (isCall_control r) hsteps, ?_⟩
    rw [hgiven] at hsteps
    rw [← hlength] at hp ⊢
    exact steps_inBounds hsteps hp
  · exact lt_of_called_again (isCall_control r)
  · exact lt_of_looped
  · rw [hlexemes]
    have hfollows := follows hl limit r
    refine ⟨hfollows.passed (isCall_control r) h hread, fun stack => ?_⟩
    have hanswers := hfollows ahead stack h
    rw [hread] at hanswers
    exact hanswers.2
  · rw [hlexemes]
    rcases ends_ofLexemes hl limit with ⟨k, hdeep⟩ | hends
    · rcases ofLexemes_agrees (Nat.le_refl limit) lexemes with ⟨hle, -⟩ | ⟨hne, -⟩
      · exact .inl ⟨hle, k, hdeep⟩
      · exact absurd hdeep (hne k)
    · exact .inr hends
  · exact ⟨items_tokenize ht hr, legible_tokens hn ht⟩

/-- The tokens of `-1*2`: at the mark, at the sign, behind it, and twice at the head of the loop along the product. -/
theorem cursor_safe_and_advancing_signed_product :
    let number? : String → Option Binary64 := fun text => (Numeral.ofChars? text.toList).map Numeral.value
    let front : List RawToken := [⟨"OP", "-", 1⟩, ⟨"NUMBER", "1", 2⟩, ⟨"OP", "*", 3⟩, ⟨"NUMBER", "2", 4⟩]
    let last : RawToken := ⟨"EOF", "", 5⟩
    let given := items (front ++ [last])
    let first : Expr := .signed .minus (.number (Numeral.value ⟨['1'], none⟩))
    let product : Expr := .binary .mul first (.number (Numeral.value ⟨['2'], none⟩))
    tokenize "-1*2" = .ok (front ++ [last]) ∧ last.type = "EOF" ∧
    (step number? given ⟨.look .primary, 4, []⟩ ≠ .error .outOfRange ∧
      step number? given ⟨.look .primary, 4, []⟩ ≠ .error .noEntry) ∧
    (Steps number? given ⟨.look .unary, 0, []⟩ ⟨.returned first, 2, []⟩ ∧ 0 < 2 ∧ 2 ≤ front.length) ∧
    (Relation.TransGen (Step number? given) ⟨.look .unary, 0, []⟩ ⟨.look .unary, 1, [.signed .minus]⟩ ∧ 0 < 1) ∧
    Relation.TransGen (Step number? given) ⟨.look (.links .product first), 2, []⟩
      ⟨.look (.links .product product), 4, []⟩ ∧ 2 < 4 := by
  intro number? front last given first product
  have hraws : tokenize "-1*2" = .ok (front ++ [last]) := rfl
  have htokens : tokens "-1*2" = .ok [⟨.symbol .minus, 1⟩, ⟨.number ⟨['1'], none⟩, 2⟩, ⟨.symbol .star, 3⟩,
    ⟨.number ⟨['2'], none⟩, 4⟩] := rfl
  have hnumber : ∀ n : Numeral, n.isSpelling = true → number? n.text = some n.value := fun n hn => by
    simp only [number?, Numeral.text, String.toList_ofList, Numeral.ofChars?_chars hn, Option.map_some]
  obtain ⟨within, returns, calls, loops, readers, legible⟩ :=
    @cursor_safe_and_advancing number? front last rfl
  obtain ⟨hgiven, hlegible⟩ := legible "-1*2" _ htokens hraws hnumber
  obtain ⟨reads, -⟩ := readers _ hgiven hlegible 2
  obtain ⟨hrange, hentry, -, -⟩ := within ⟨.look .primary, 4, []⟩ (by decide)
  obtain ⟨-, hfirst⟩ := reads (.phrase .unary) _ [.symbol .star, .number ⟨['2'], none⟩] first (List.suffix_refl _) rfl
  obtain ⟨-, hsecond⟩ := reads (.phrase .unary) [.number ⟨['2'], none⟩] [] (.number (Numeral.value ⟨['2'], none⟩))
    (by decide) rfl
  have hcalled : Relation.TransGen (Step number? given) ⟨.look .unary, 0, []⟩ ⟨.look .unary, 1, [.signed .minus]⟩ :=
    .single rfl
  have hlooped : Relation.TransGen (Step number? given) ⟨.look (.links .product first), 2, []⟩
      ⟨.look (.links .product product), 4, []⟩ := .tail' (.head rfl (hsecond [.right .product .mul first])) rfl
  obtain ⟨hlt, hle⟩ := returns (.phrase .unary) 0 2 [] first (by decide) (hfirst [])
  exact ⟨hraws, rfl, ⟨hrange, hentry⟩, ⟨hfirst [], hlt, hle⟩, ⟨hcalled, calls (.phrase .unary) 0 1 _ _ hcalled⟩,
    hlooped, loops (.links .product first) (.links .product product) 2 4 [] rfl hlooped⟩

end Calculator.Descent
