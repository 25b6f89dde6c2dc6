import Calculator.Proofs.Grammar.Completeness

/-!
# How far readers go

`extent` is what is left of reading a nonterminal if one looks at the lexemes left over and at the fault alone. It
depends neither on the room, as long as there is enough of it (`ends_eq_extent`), nor on what has been read before.
`extent_lexemes`: reading a derivation gives up for its depth exactly if the limit of nesting is below it.
-/

namespace Calculator.Grammar
open Grammar.Derivation

/-! ## Ends of readings -/

def ends {α : Type} : Except GrammarError (α × List Lexeme) → Except GrammarFault (List Lexeme)
  | .error e => .error e.fault
  | .ok p => .ok p.2

section
variable {α β γ δ : Type} {x : Except GrammarError (α × List Lexeme)} {y : Except GrammarError (β × List Lexeme)}

theorem ends_bind {f : α × List Lexeme → Except GrammarError (γ × List Lexeme)}
    {g : List Lexeme → Except GrammarFault (List Lexeme)} (h : ∀ p, x = .ok p → ends (f p) = g p.2) :
    ends (x.bind f) = (ends x).bind g := by
  cases x with
  | error e => rfl
  | ok p => exact h p rfl

theorem ends_bind_congr {f : α × List Lexeme → Except GrammarError (γ × List Lexeme)}
    {g : β × List Lexeme → Except GrammarError (δ × List Lexeme)} (h : ends x = ends y)
    (hf : ∀ p p', x = .ok p → p.2 = p'.2 → ends (f p) = ends (g p')) : ends (x.bind f) = ends (y.bind g) := by
  cases x with
  | error e =>
    cases y with
    | error e' => exact h
    | ok p' => cases h
  | ok p =>
    cases y with
    | error e' => cases h
    | ok p' => exact hf p p' rfl (Except.ok.inj h)

end

def SameEnds (bound : Nat) {α β : Type} (r : Reader α) (r' : Reader β) : Prop :=
  ∀ ahead, ahead.length ≤ bound → ends (r ahead) = ends (r' ahead)

/-! ## Rooms -/

section
variable {bound room room' : Nat} {tier : Tier} {operand operand' : Reader Expr}
  (ho : Sound (.phrase tier.operand) operand) (hs : SameEnds bound operand operand')
include ho hs

/-- What has been read of a chain does not matter to the rest, and more room than lexemes neither. -/
theorem chainFrom_sameEnds : ∀ {n n' : Nat} {left left' : Expr} {ahead : List Lexeme}, ahead.length ≤ bound →
    ahead.length ≤ n → ahead.length ≤ n' →
    ends (Reader.chainFrom tier.operator? operand n left ahead) =
      ends (Reader.chainFrom tier.operator? operand' n' left' ahead) := by
  intro n
  induction n with
  | zero =>
    intro n' left left' ahead _ hn _
    obtain rfl : ahead = [] := List.length_eq_zero_iff.mp (Nat.le_zero.mp hn)
    rw [chainFrom_stop (by simp), chainFrom_stop (by simp)]
    rfl
  | succ n ih =>
    intro n' left left' ahead hb hn hn'
    rcases linked_or_not tier ahead with ⟨s, op, rest, hj, rfl⟩ | hj
    · simp only [List.length_cons] at hb hn hn'
      obtain ⟨n', rfl⟩ : ∃ m, n' = m + 1 := ⟨n' - 1, by omega⟩
      rw [chainFrom_link hj, chainFrom_link hj]
      refine ends_bind_congr (hs rest (by omega)) fun p p' hp he => ?_
      have hlength := ho.length_le hp
      rw [← he]
      exact ih (by omega) (by omega) (by omega)
    · rw [chainFrom_stop hj, chainFrom_stop hj]
      rfl

variable (tier) in
theorem chain_sameEnds (hr : bound ≤ room) (hr' : bound ≤ room') :
    SameEnds bound (Reader.chain tier.operator? room operand) (Reader.chain tier.operator? room' operand') := by
  intro ahead hb
  rw [chain_eq, chain_eq]
  refine ends_bind_congr (hs ahead hb) fun p p' hp he => ?_
  have hlength := ho.length_le hp
  rw [← he]
  exact chainFrom_sameEnds ho hs (by omega) (by omega) (by omega)

end

theorem chainPhrase_sound {operand : Reader Expr} (ho : Sound (.phrase .unary) operand) (room : Nat) (tier : Tier) :
    Sound (.phrase (.chain tier)) ((Phrase.chain tier).reader room operand) := by
  have product : Sound (.phrase (.chain .product)) _ := chain_sound .product ho room
  have sum : Sound (.phrase (.chain .sum)) _ := chain_sound .sum product room
  have and : Sound (.phrase (.chain .bitAnd)) _ := chain_sound .bitAnd sum room
  cases tier with
  | bitOr => exact expression_sound ho room
  | bitAnd => exact and
  | sum => exact sum
  | product => exact product

theorem chainPhrase_sameEnds {bound room room' : Nat} {operand operand' : Reader Expr}
    (ho : Sound (.phrase .unary) operand) (hs : SameEnds bound operand operand') (hr : bound ≤ room)
    (hr' : bound ≤ room') (tier : Tier) :
    SameEnds bound ((Phrase.chain tier).reader room operand) ((Phrase.chain tier).reader room' operand') := by
  have sound : ∀ tier, Sound (.phrase (.chain tier)) _ := chainPhrase_sound ho room
  have product := chain_sameEnds .product ho hs hr hr'
  have sum := chain_sameEnds .sum (sound .product) product hr hr'
  have and := chain_sameEnds .bitAnd (sound .sum) sum hr hr'
  cases tier with
  | bitOr => exact chain_sameEnds .bitOr (sound .bitAnd) and hr hr'
  | bitAnd => exact and
  | sum => exact sum
  | product => exact product

section
variable {bound room room' : Nat} {inner inner' : Reader Expr} (hi : Sound (.phrase (.chain .bitOr)) inner)
  (hs : SameEnds bound inner inner')

include hs in
theorem argument_sameEnds : SameEnds bound (Reader.argument inner) (Reader.argument inner') := by
  intro ahead hb
  unfold Reader.argument
  split
  · rfl
  · rfl
  · exact hs ahead hb

include hi hs

theorem argumentsFrom_sameEnds : ∀ {n n' : Nat} {read read' : List Expr} {ahead : List Lexeme},
    ahead.length ≤ bound → ahead.length ≤ n → ahead.length ≤ n' →
    ends (Reader.argumentsFrom inner n read ahead) = ends (Reader.argumentsFrom inner' n' read' ahead) := by
  intro n
  induction n with
  | zero =>
    intro n' read read' ahead _ hn _
    obtain rfl : ahead = [] := List.length_eq_zero_iff.mp (Nat.le_zero.mp hn)
    rw [argumentsFrom_stop (by simp), argumentsFrom_stop (by simp)]
    rfl
  | succ n ih =>
    intro n' read read' ahead hb hn hn'
    by_cases hc : ahead.head? = some (.symbol .comma)
    · obtain ⟨rest, rfl⟩ := List.head?_eq_some_iff.mp hc
      simp only [List.length_cons] at hb hn hn'
      obtain ⟨n', rfl⟩ : ∃ m, n' = m + 1 := ⟨n' - 1, by omega⟩
      rw [argumentsFrom_comma, argumentsFrom_comma]
      refine ends_bind_congr (argument_sameEnds hs rest (by omega)) fun p p' hp he => ?_
      have hlength := hi.length_le (argument_eq_ok hp)
      rw [← he]
      exact ih (by omega) (by omega) (by omega)
    · rw [argumentsFrom_stop hc, argumentsFrom_stop hc]
      rfl

theorem arguments_sameEnds (hr : bound ≤ room) (hr' : bound ≤ room') {ahead : List Lexeme}
    (hb : ahead.length ≤ bound) :
    ends (Reader.arguments room inner ahead) = ends (Reader.arguments room' inner' ahead) := by
  by_cases hc : ahead.head? = some (.symbol .closing)
  · obtain ⟨rest, rfl⟩ := List.head?_eq_some_iff.mp hc
    rfl
  · rw [arguments_some hc, arguments_some hc]
    refine ends_bind_congr (argument_sameEnds hs ahead hb) fun p p' hp he => ?_
    have hlength := hi.length_le (argument_eq_ok hp)
    rw [← he]
    exact argumentsFrom_sameEnds hi hs (by omega) (by omega) (by omega)

end

def closeEnd : List Lexeme → Except GrammarFault (List Lexeme)
  | .symbol .closing :: rest => .ok rest
  | [] => .error .unmatchedOpening
  | l :: _ => .error (.unexpected l)

theorem ends_close {α : Type} (v : α) (opened : List Lexeme) : ∀ after : List Lexeme,
    ends ((Reader.close opened after).bind fun rest => .ok (v, rest)) = closeEnd after
  | [] | .number _ :: _ | .name _ :: _ => rfl
  | .symbol s :: rest => by cases s <;> rfl

theorem primary_sameEnds {bound room room' : Nat} {inner inner' : Reader Expr}
    (hi : Sound (.phrase (.chain .bitOr)) inner) (hs : SameEnds bound inner inner') (hr : bound ≤ room)
    (hr' : bound ≤ room') : SameEnds bound (Reader.primary room inner) (Reader.primary room' inner')
  | [], _ => rfl
  | .number n :: rest, _ => rfl
  | .name n :: rest, hb => by
    by_cases hc : rest.head? = some (.symbol .opening)
    · obtain ⟨tail, rfl⟩ := List.head?_eq_some_iff.mp hc
      simp only [List.length_cons] at hb
      rw [primary_call, primary_call]
      refine ends_bind_congr (arguments_sameEnds hi hs hr hr' (by omega)) fun p p' _ he => ?_
      rw [ends_close, ends_close, he]
    · rw [primary_name hc, primary_name hc]
  | .symbol s :: rest, hb => by
    by_cases ho : s = .opening
    · subst ho
      by_cases hc : rest.head? = some (.symbol .closing)
      · obtain ⟨tail, rfl⟩ := List.head?_eq_some_iff.mp hc
        rfl
      · rw [List.length_cons] at hb
        rw [primary_group hc, primary_group hc]
        refine ends_bind_congr (hs rest (by omega)) fun p p' _ he => ?_
        rw [ends_close, ends_close, he]
    · rw [primary_other (by simpa [startsPrimary] using ho), primary_other (by simpa [startsPrimary] using ho)]

def raiseEnd (operand : List Lexeme → Except GrammarFault (List Lexeme)) :
    List Lexeme → Except GrammarFault (List Lexeme)
  | .symbol .opening :: _ => .error .calleeNotName
  | .symbol .caret :: rest => operand rest
  | after => .ok after

theorem ends_raise (operand : Reader Expr) (base : Expr) : ∀ after : List Lexeme,
    ends (raise operand (base, after)) = raiseEnd (fun rest => ends (operand rest)) after
  | [] | .number _ :: _ | .name _ :: _ => rfl
  | .symbol s :: rest => by
    cases s with
    | caret =>
      rw [raise, raiseEnd]
      cases operand rest <;> rfl
    | _ => rfl

section
variable {bound room room' : Nat} {operand operand' : Reader Expr} (ho : Sound (.phrase .unary) operand)
  (hs : SameEnds bound operand operand') (hr : bound ≤ room) (hr' : bound ≤ room')
include ho hs hr hr'

theorem power_sameEnds : SameEnds bound (Reader.power room operand) (Reader.power room' operand') := by
  intro ahead hb
  have hsound := expression_sound ho room
  rw [power_eq, power_eq]
  refine ends_bind_congr (primary_sameEnds hsound (chainPhrase_sameEnds ho hs hr hr' .bitOr) hr hr' ahead hb) ?_
  rintro ⟨base, after⟩ ⟨base', after'⟩ hp rfl
  have hlength : after.length ≤ ahead.length := (primary_sound hsound room).length_le hp
  rw [ends_raise, ends_raise]
  unfold raiseEnd
  split
  · rfl
  · rename_i rest
    rw [List.length_cons] at hlength
    exact hs rest (by omega)
  · rfl

end

theorem operand_sameEnds {bound room room' : Nat} (hr : bound ≤ room) (hr' : bound ≤ room') : ∀ limit : Nat,
    SameEnds bound (Reader.operand room limit) (Reader.operand room' limit)
  | 0, _, _ => rfl
  | limit + 1, ahead, hb => by
    have hs := operand_sameEnds hr hr' limit
    rcases signed_or_not ahead with ⟨s, sign, rest, hsign, rfl⟩ | hsign
    · rw [List.length_cons] at hb
      rw [operand_signed hsign, operand_signed hsign]
      exact ends_bind_congr (hs rest (by omega)) fun p p' _ he => congrArg Except.ok he
    · rw [operand_unsigned hsign, operand_unsigned hsign]
      exact power_sameEnds (operand_sound room limit) hs hr hr' ahead hb

/-! ## Phrases -/

theorem phrase_sound (room limit : Nat) (p : Phrase) :
    Sound (.phrase p) (p.reader room (Reader.operand room limit)) := by
  have ho := operand_sound room limit
  cases p with
  | chain tier => exact chainPhrase_sound ho room tier
  | unary => exact ho
  | power => exact power_sound ho room
  | primary => exact primary_sound (expression_sound ho room) room

theorem phrase_sameEnds {bound room room' : Nat} (hr : bound ≤ room) (hr' : bound ≤ room') (limit : Nat) (p : Phrase) :
    SameEnds bound (p.reader room (Reader.operand room limit)) (p.reader room' (Reader.operand room' limit)) := by
  have ho := operand_sound room limit
  have hs := operand_sameEnds hr hr' limit
  have hchain := chainPhrase_sameEnds ho hs hr hr'
  cases p with
  | chain tier => exact hchain tier
  | unary => exact hs
  | power => exact power_sameEnds ho hs hr hr'
  | primary => exact primary_sameEnds (expression_sound ho room) (hchain .bitOr) hr hr'

/-! ## Extents -/

def endsWithin (room limit : Nat) : Nonterminal → List Lexeme → Except GrammarFault (List Lexeme)
  | .phrase p, ahead => ends (p.reader room (Reader.operand room limit) ahead)
  | .more tier, ahead => ends (Reader.chainFrom tier.operator?
      (tier.operand.reader room (Reader.operand room limit)) room (.number .zero) ahead)
  | .arguments, ahead =>
    ends (Reader.arguments room (Reader.expression room (Reader.operand room limit)) ahead)
  | .moreArguments, ahead =>
    ends (Reader.argumentsFrom (Reader.expression room (Reader.operand room limit)) room [] ahead)

/-- How reading a nonterminal ends. -/
def extent (limit : Nat) (nt : Nonterminal) (ahead : List Lexeme) : Except GrammarFault (List Lexeme) :=
  endsWithin ahead.length limit nt ahead

section
variable {room limit : Nat} {ahead : List Lexeme} (h : ahead.length ≤ room)
include h

theorem endsWithin_eq : ∀ nt : Nonterminal, endsWithin room limit nt ahead = extent limit nt ahead
  | .phrase p => phrase_sameEnds h (Nat.le_refl _) limit p ahead (Nat.le_refl _)
  | .more tier => chainFrom_sameEnds (phrase_sound room limit tier.operand)
      (phrase_sameEnds h (Nat.le_refl _) limit tier.operand) (Nat.le_refl _) h (Nat.le_refl _)
  | .arguments => arguments_sameEnds (expression_sound (operand_sound room limit) room)
      (phrase_sameEnds h (Nat.le_refl _) limit (.chain .bitOr)) h (Nat.le_refl _) (Nat.le_refl _)
  | .moreArguments => argumentsFrom_sameEnds (expression_sound (operand_sound room limit) room)
      (phrase_sameEnds h (Nat.le_refl _) limit (.chain .bitOr)) (Nat.le_refl _) h (Nat.le_refl _)

theorem ends_phrase (p : Phrase) :
    ends (p.reader room (Reader.operand room limit) ahead) = extent limit (.phrase p) ahead :=
  endsWithin_eq h (.phrase p)

theorem ends_expression :
    ends (Reader.expression room (Reader.operand room limit) ahead) = extent limit (.phrase (.chain .bitOr)) ahead :=
  endsWithin_eq h (.phrase (.chain .bitOr))

theorem ends_chainFrom {tier : Tier} {n : Nat} (hn : ahead.length ≤ n) (left : Expr) :
    ends (Reader.chainFrom tier.operator? (tier.operand.reader room (Reader.operand room limit)) n left ahead) =
      extent limit (.more tier) ahead :=
  chainFrom_sameEnds (phrase_sound room limit tier.operand)
    (phrase_sameEnds h (Nat.le_refl _) limit tier.operand) (Nat.le_refl _) hn (Nat.le_refl _)

theorem ends_argumentsFrom {n : Nat} (hn : ahead.length ≤ n) (read : List Expr) :
    ends (Reader.argumentsFrom (Reader.expression room (Reader.operand room limit)) n read ahead) =
      extent limit .moreArguments ahead :=
  argumentsFrom_sameEnds (expression_sound (operand_sound room limit) room)
    (phrase_sameEnds h (Nat.le_refl _) limit (.chain .bitOr)) (Nat.le_refl _) hn (Nat.le_refl _)

end

/-! ## Reading step by step -/

def BeginsOperand (ahead : List Lexeme) : Prop := ∃ l, ahead.head? = some l ∧ startsOperand l = true

namespace BeginsOperand
variable {ahead : List Lexeme} (h : BeginsOperand ahead)
include h

theorem ne {l : Lexeme} (hl : startsOperand l = false) : ahead.head? ≠ some l := by
  obtain ⟨l', hhead, hl'⟩ := h
  rw [hhead]
  rintro ⟨⟩
  rw [hl] at hl'
  cases hl'

theorem ne_closing : ahead.head? ≠ some (.symbol .closing) := h.ne rfl

theorem argument (inner : Reader Expr) : Reader.argument inner ahead = inner ahead := by
  rw [Reader.argument]
  · rintro rest rfl
    exact h.ne (l := .symbol .comma) rfl rfl
  · rintro rest rfl
    exact h.ne_closing rfl

end BeginsOperand

section
variable {limit : Nat} {tier : Tier} {ahead : List Lexeme}

theorem extent_chain : extent limit (.phrase (.chain tier)) ahead =
    (extent limit (.phrase tier.operand) ahead).bind (extent limit (.more tier)) := by
  rw [extent, endsWithin, reader_chain, chain_eq, ← ends_phrase (Nat.le_refl _)]
  refine ends_bind fun p hp => ?_
  have hlength := (phrase_sound ahead.length limit tier.operand).length_le hp
  exact ends_chainFrom hlength hlength p.1

theorem extent_link {s : Symbol} {op : Operator} (joins : Joins tier s op) :
    extent limit (.more tier) (.symbol s :: ahead) =
      (extent limit (.phrase tier.operand) ahead).bind (extent limit (.more tier)) := by
  rw [extent, endsWithin, List.length_cons, chainFrom_link joins, ← ends_phrase (Nat.le_succ _)]
  refine ends_bind fun p hp => ?_
  have hlength := (phrase_sound (ahead.length + 1) limit tier.operand).length_le hp
  exact ends_chainFrom (Nat.le_succ_of_le hlength) hlength _

theorem extent_done (h : ∀ s op, Joins tier s op → ahead.head? ≠ some (.symbol s)) :
    extent limit (.more tier) ahead = .ok ahead := by
  rw [extent, endsWithin, chainFrom_stop h]
  rfl

theorem extent_arguments (h : BeginsOperand ahead) : extent limit .arguments ahead =
    (extent limit (.phrase (.chain .bitOr)) ahead).bind (extent limit .moreArguments) := by
  rw [extent, endsWithin, arguments_some h.ne_closing, h.argument, ← ends_expression (Nat.le_refl _)]
  refine ends_bind fun p hp => ?_
  have hlength := (phrase_sound ahead.length limit (.chain .bitOr)).length_le hp
  exact ends_argumentsFrom hlength hlength _

theorem extent_comma (h : BeginsOperand ahead) : extent limit .moreArguments (.symbol .comma :: ahead) =
    (extent limit (.phrase (.chain .bitOr)) ahead).bind (extent limit .moreArguments) := by
  rw [extent, endsWithin, List.length_cons, argumentsFrom_comma, h.argument, ← ends_expression (Nat.le_succ _)]
  refine ends_bind fun p hp => ?_
  have hlength := (phrase_sound (ahead.length + 1) limit (.chain .bitOr)).length_le hp
  exact ends_argumentsFrom (Nat.le_succ_of_le hlength) hlength _

theorem extent_name (h : ahead.head? ≠ some (.symbol .opening)) (n : String) :
    extent limit (.phrase .primary) (.name n :: ahead) = .ok ahead := by
  rw [extent, endsWithin, Phrase.reader, primary_name h]
  rfl

theorem extent_call (f : String) : extent limit (.phrase .primary) (.name f :: .symbol .opening :: ahead) =
    (extent limit .arguments ahead).bind closeEnd := by
  rw [extent, endsWithin, Phrase.reader, primary_call]
  have hends : endsWithin (ahead.length + 2) limit .arguments ahead = extent limit .arguments ahead :=
    endsWithin_eq (by omega) .arguments
  rw [← hends]
  exact ends_bind fun p _ => ends_close _ _ _

theorem extent_group (h : ahead.head? ≠ some (.symbol .closing)) :
    extent limit (.phrase .primary) (.symbol .opening :: ahead) =
      (extent limit (.phrase (.chain .bitOr)) ahead).bind closeEnd := by
  rw [extent, endsWithin, Phrase.reader, primary_group h, ← ends_expression (Nat.le_succ ahead.length)]
  exact ends_bind fun p _ => ends_close _ _ _

theorem extent_power : extent limit (.phrase .power) ahead =
    (extent limit (.phrase .primary) ahead).bind (raiseEnd (extent limit (.phrase .unary))) := by
  rw [extent, endsWithin, Phrase.reader, power_eq, ← ends_phrase (Nat.le_refl _)]
  refine ends_bind ?_
  rintro ⟨base, after⟩ hp
  have hlength : after.length ≤ ahead.length := (phrase_sound ahead.length limit .primary).length_le hp
  rw [ends_raise]
  unfold raiseEnd
  split
  · rfl
  · rename_i rest
    rw [List.length_cons] at hlength
    exact ends_phrase (by omega) .unary
  · rfl

theorem extent_signed {s : Symbol} {sign : Sign} (signs : Signs s sign) :
    extent (limit + 1) (.phrase .unary) (.symbol s :: ahead) = extent limit (.phrase .unary) ahead := by
  rw [extent, endsWithin, Phrase.reader, operand_signed signs, ← ends_phrase (Nat.le_succ ahead.length) .unary]
  rw [List.length_cons, Phrase.reader]
  cases Reader.operand (ahead.length + 1) limit ahead <;> rfl

theorem extent_unsigned (h : ∀ s sign, Signs s sign → ahead.head? ≠ some (.symbol s)) :
    extent (limit + 1) (.phrase .unary) ahead = extent limit (.phrase .power) ahead := by
  rw [extent, endsWithin, Phrase.reader, operand_unsigned h]
  rfl

end

/-! ## Derivations -/

def admitted (depth limit : Nat) (rest : List Lexeme) : Except GrammarFault (List Lexeme) :=
  if depth ≤ limit then .ok rest else .error .tooDeep

theorem admitted_max {depth depth' limit : Nat} {rest rest' : List Lexeme}
    {next : List Lexeme → Except GrammarFault (List Lexeme)} (h : next rest' = admitted depth' limit rest) :
    (admitted depth limit rest').bind next = admitted (max depth depth') limit rest := by
  unfold admitted at *
  by_cases hd : depth ≤ limit
  · rw [if_pos hd]
    simp only [Except.bind, h]
    by_cases hd' : depth' ≤ limit
    · rw [if_pos hd', if_pos (by omega)]
    · rw [if_neg hd', if_neg (by omega)]
  · rw [if_neg hd, if_neg (by omega)]
    rfl

theorem admitted_bind {depth limit : Nat} {rest rest' : List Lexeme}
    {next : List Lexeme → Except GrammarFault (List Lexeme)} (h : next rest' = .ok rest) :
    (admitted depth limit rest').bind next = admitted depth limit rest := by
  have hnext : next rest' = admitted 0 limit rest := by rw [h, admitted, if_pos (Nat.zero_le limit)]
  rw [admitted_max hnext, Nat.max_zero]

theorem admitted_succ (depth limit : Nat) (rest : List Lexeme) :
    admitted (depth + 1) (limit + 1) rest = admitted depth limit rest := by
  simp only [admitted, Nat.add_le_add_iff_right]

theorem raiseEnd_stop {rest : List Lexeme} (h : Phrase.power.Stops rest)
    (operand : List Lexeme → Except GrammarFault (List Lexeme)) : raiseEnd operand rest = .ok rest := by
  unfold raiseEnd
  split
  · exact absurd rfl (h .opening (by decide))
  · exact absurd rfl (h .caret (by decide))
  · rfl

theorem beginsOperand_append {p : Phrase} (d : Derivation (.phrase p)) (rest : List Lexeme) :
    BeginsOperand (d.lexemes ++ rest) := head?_append d rest

theorem extent_lexemes {nt : Nonterminal} (d : Derivation nt) : ∀ {limit : Nat} {rest : List Lexeme}, Stops nt rest →
    extent limit nt (d.lexemes ++ rest) = admitted d.depth limit rest := by
  induction d with
  | chain first more hf hm =>
    intro limit rest h
    rw [lexemes, List.append_assoc, extent_chain, hf (more_stops more h), depth]
    exact admitted_max (hm h)
  | done =>
    intro limit rest h
    rw [lexemes, List.nil_append, extent_done fun s op joins => h s (continuation joins)]
    rfl
  | link s op joins right more hr hm =>
    intro limit rest h
    rw [lexemes, List.cons_append, List.append_assoc, extent_link joins, hr (more_stops more h), depth]
    exact admitted_max (hm h)
  | signed s sign signs operand ho =>
    intro limit rest h
    cases limit with
    | zero => rfl
    | succ limit => rw [lexemes, List.cons_append, depth, extent_signed signs, ho h, admitted_succ]
  | unsigned power hp =>
    intro limit rest h
    cases limit with
    | zero => rfl
    | succ limit =>
      have hstops : Stops (.phrase .power) rest := Phrase.Stops.mono (by decide) h
      rw [lexemes, depth, extent_unsigned (head?_ne_sign power rest), hp hstops, admitted_succ]
  | plain base hb =>
    intro limit rest h
    rw [lexemes, depth, extent_power, hb (power_stops_base h)]
    exact admitted_bind (raiseEnd_stop h _)
  | raised base exponent hb he =>
    intro limit rest h
    rw [lexemes, List.append_assoc, List.cons_append, depth, extent_power, hb (caret_stops_base _)]
    exact admitted_max (he h)
  | number n => exact fun _ => rfl
  | name n =>
    intro limit rest h
    exact extent_name (h .opening (by decide)) n
  | call f args ha =>
    intro limit rest h
    have hclosing : Stops .arguments (.symbol .closing :: rest) := rfl
    rw [lexemes, List.cons_append, List.cons_append, List.append_assoc, depth, extent_call]
    rw [List.singleton_append, ha hclosing]
    exact admitted_bind rfl
  | group inner hi =>
    intro limit rest h
    have hinside := beginsOperand_append inner (.symbol .closing :: rest)
    rw [lexemes, List.cons_append, List.append_assoc, List.singleton_append, depth, extent_group hinside.ne_closing,
      hi (closing_stops (.chain .bitOr) rest)]
    exact admitted_bind rfl
  | noArguments =>
    intro limit rest h
    obtain ⟨tail, rfl⟩ := List.head?_eq_some_iff.mp h
    rfl
  | someArguments first more hf hm =>
    intro limit rest h
    rw [lexemes, List.append_assoc, depth, extent_arguments (beginsOperand_append first _),
      hf (moreArguments_stops more h _)]
    exact admitted_max (hm h)
  | noMore =>
    intro limit rest h
    obtain ⟨tail, rfl⟩ := List.head?_eq_some_iff.mp h
    rfl
  | oneMore arg more ha hm =>
    intro limit rest h
    rw [lexemes, List.cons_append, List.append_assoc, depth, extent_comma (beginsOperand_append arg _),
      ha (moreArguments_stops more h _)]
    exact admitted_max (hm h)

end Calculator.Grammar
