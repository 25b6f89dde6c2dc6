import Calculator.Proofs.Grammar.Equations
import Mathlib.Data.Prod.Lex
import Mathlib.Logic.Relation

/-!
# Recursive descent with a cursor

The readers as routines that call one another, step by step: a cursor on raw tokens, of whatever type and text they are,
the place in the routine that is running, and a stack of the calls that wait for a value. A step looks at one token at
most.

`step_cases`: a step passes the token under the cursor, which is no end mark, or it leaves the cursor where it is and
the state weighs less. So the cursor stays at or before the only end mark, whatever comes round again has passed a
token, and every run ends (`exists_ends`).
-/

namespace Calculator.Descent
open Grammar

/-! ## Items and states -/

/-- What the routines tell apart among tokens. -/
inductive Item where
  | number (text : String)
  | name (text : String)
  | symbol (s : Symbol)
  /-- A token of another type, or one that is to be a symbol and has another text. -/
  | other (text : String)
  /-- The end mark, whatever its text. -/
  | finish
deriving DecidableEq

def Item.text : Item → String
  | number text => text
  | name text => text
  | symbol s => String.singleton s.char
  | other text => text
  | finish => ""

def symbolOf (text : String) : Item :=
  match Symbol.all.find? fun s => String.singleton s.char == text with
  | some s => .symbol s
  | none => .other text

def item (t : RawToken) : Item :=
  if t.type = "EOF" then .finish
  else if t.type = "NUMBER" then .number t.value
  else if t.type = "IDENT" then .name t.value
  else if t.type = "OP" then symbolOf t.value
  else .other t.value

def items (tokens : List RawToken) : List Item := tokens.map item

/-- A place in a routine where it looks at the item under the cursor. -/
inductive Point where
  | start
  | unary
  | primary
  | argument
  /-- The head of the loop that goes along a chain. -/
  | links (tier : Tier) (left : Expr)
  | behindName (name : String)
  | inside (opened : Nat)
  | arguments (name : String) (opened : Nat)
  /-- The head of the loop that goes along arguments, the latest first. -/
  | moreArguments (name : String) (opened : Nat) (read : List Expr)
  | close (opened : Nat) (read : Expr)
  | behindBase (base : Expr)
  | finish (read : Expr)

inductive Control where
  | chain (tier : Tier)
  | power
  | look (point : Point)
  | returned (e : Expr)

def Control.call : Phrase → Control
  | .chain tier => .chain tier
  | .unary => .look .unary
  | .power => .power
  | .primary => .look .primary

/-- A call that waits for the value of another. -/
inductive Frame where
  | first (tier : Tier)
  | right (tier : Tier) (op : Operator) (left : Expr)
  | signed (sign : Sign)
  | power
  | exponent (base : Expr)
  | group (opened : Nat)
  | argument (name : String) (opened : Nat) (read : List Expr)

def Frame.resume : Frame → Expr → Control
  | first tier, e => .look (.links tier e)
  | right tier op left, e => .look (.links tier (.binary op left e))
  | signed sign, e => .returned (.signed sign e)
  | power, e => .look (.behindBase e)
  | exponent base, e => .returned (.binary .pow base e)
  | group opened, e => .look (.close opened (.group e))
  | argument name opened read, e => .look (.moreArguments name opened (e :: read))

structure State where
  control : Control
  position : Nat
  stack : List Frame

inductive Halt where
  | parsed (e : Expr)
  | fault (fault : GrammarFault) (position : Nat)
  | unexpected (text : String) (position : Nat)
  | notNumber (text : String)
  | outOfRange
  /-- A table of operators or signs lacks the symbol. -/
  | noEntry

/-! ## Steps -/

/-- What is done on an item: how the routine goes on, whether the cursor passes the item, and what begins to wait. -/
structure Move where
  control : Control
  passes : Bool
  frames : List Frame

def stay (control : Control) : Except Halt Move := .ok ⟨control, false, []⟩

def pass (control : Control) : Except Halt Move := .ok ⟨control, true, []⟩

/-- A text counts here, whatever the type of its token. -/
def unexpected (position : Nat) (item : Item) : Except Halt Move :=
  if item = .finish then .error (.fault .unexpectedEnd position)
  else if item.text = ")" then .error (.fault .unmatchedClosing position)
  else .error (.unexpected item.text position)

/-- The symbols at which the loop along a chain goes on. -/
def linkSymbols : Tier → List Symbol
  | .bitOr => [.bar]
  | .bitAnd => [.ampersand]
  | .sum => [.plus, .minus]
  | .product => [.star, .slash, .percent]

def signSymbols : List Symbol := [.plus, .minus]

def takeEntry {α : Type} (entry : Option α) (control : Control) (frame : α → Frame) : Except Halt Move :=
  match entry with
  | some a => .ok ⟨control, true, [frame a]⟩
  | none => .error .noEntry

section
variable (number? : String → Option Binary64)

def Point.act (position : Nat) : Point → Item → Except Halt Move
  | start, .finish => .error (.fault .emptyExpression position)
  | start, _ => stay (.call (.chain .bitOr))
  | unary, .symbol s =>
    if s ∈ signSymbols then takeEntry (Reader.sign? s) (.call .unary) .signed else stay (.call .power)
  | unary, _ => stay (.call .power)
  | primary, .number text =>
    match number? text with
    | some x => pass (.returned (.number x))
    | none => .error (.notNumber text)
  | primary, .name n => pass (.look (.behindName n))
  | primary, .symbol .opening => pass (.look (.inside position))
  | primary, item => unexpected position item
  | argument, .symbol .comma => .error (.fault .emptyArgument position)
  | argument, .symbol .closing => .error (.fault .emptyArgument position)
  | argument, _ => stay (.call (.chain .bitOr))
  | links tier left, .symbol s =>
    if s ∈ linkSymbols tier then takeEntry (tier.operator? s) (.call tier.operand) (.right tier · left)
    else stay (.returned left)
  | links _ left, _ => stay (.returned left)
  | behindName n, .symbol .opening => pass (.look (.arguments n position))
  | behindName n, _ => stay (.returned (.name n))
  | inside _, .symbol .closing => .error (.fault .emptyParentheses position)
  | inside opened, _ => .ok ⟨.call (.chain .bitOr), false, [.group opened]⟩
  | arguments f opened, .symbol .closing => stay (.look (.close opened (.call f [])))
  | arguments f opened, _ => .ok ⟨.look .argument, false, [.argument f opened []]⟩
  | moreArguments f opened read, .symbol .comma => .ok ⟨.look .argument, true, [.argument f opened read]⟩
  | moreArguments f opened read, _ => stay (.look (.close opened (.call f read.reverse)))
  | close _ e, .symbol .closing => pass (.returned e)
  | close opened _, .finish => .error (.fault .unmatchedOpening opened)
  | close _ _, item => unexpected position item
  | behindBase _, .symbol .opening => .error (.fault .calleeNotName position)
  | behindBase base, .symbol .caret => .ok ⟨.call .unary, true, [.exponent base]⟩
  | behindBase base, _ => stay (.returned base)
  | finish e, .finish => .error (.parsed e)
  | finish _, item => unexpected position item

def step (items : List Item) : State → Except Halt State
  | ⟨.chain tier, position, stack⟩ => .ok ⟨.call tier.operand, position, .first tier :: stack⟩
  | ⟨.power, position, stack⟩ => .ok ⟨.call .primary, position, .power :: stack⟩
  | ⟨.returned e, position, []⟩ => .ok ⟨.look (.finish e), position, []⟩
  | ⟨.returned e, position, frame :: stack⟩ => .ok ⟨frame.resume e, position, stack⟩
  | ⟨.look point, position, stack⟩ =>
    match items[position]? with
    | none => .error .outOfRange
    | some item =>
      match point.act number? position item with
      | .error h => .error h
      | .ok m => .ok ⟨m.control, if m.passes then position + 1 else position, m.frames ++ stack⟩

abbrev Step (items : List Item) (s s' : State) : Prop := step number? items s = .ok s'

abbrev Steps (items : List Item) : State → State → Prop := Relation.ReflTransGen (Step number? items)

def Ends (items : List Item) (s : State) (h : Halt) : Prop :=
  ∃ s', Steps number? items s s' ∧ step number? items s' = .error h

end

/-! ## Weights -/

/-- Deeper levels weigh less, and a routine that is about to return less than any that is called. A call that begins to
wait makes up for the weight of its frame. -/
def Control.weight : Control → Nat
  | look (.arguments ..) => 35
  | look .start | look (.inside _) | look .argument => 31
  | chain .bitOr => 27
  | chain .bitAnd => 23
  | chain .sum => 19
  | chain .product => 15
  | look .unary => 11
  | power => 7
  | look .primary => 3
  | look (.links ..) | look (.behindName _) | look (.moreArguments ..) | look (.behindBase _) => 2
  | returned _ | look (.close ..) => 1
  | look (.finish _) => 0

def State.weight (s : State) : Nat := s.control.weight + 3 * s.stack.length

def Control.isCall : Control → Bool
  | chain _ | power | look .unary | look .primary | look .argument => true
  | _ => false

def Point.SameLoop : Point → Point → Prop
  | links tier _, links tier' _ => tier = tier'
  | moreArguments f opened _, moreArguments f' opened' _ => f = f' ∧ opened = opened'
  | _, _ => False

@[simp] theorem isCall_call (p : Phrase) : (Control.call p).isCall = true := by cases p <;> rfl

theorem weight_operand (tier : Tier) : (Control.call tier.operand).weight + 4 = (Control.chain tier).weight := by
  cases tier <;> rfl

theorem weight_of_sameLoop {point point' : Point} (h : point.SameLoop point') :
    (Control.look point).weight = (Control.look point').weight := by
  unfold Point.SameLoop at h
  split at h
  · rfl
  · rfl
  · cases h

theorem weight_returned (e : Expr) : (Control.returned e).weight = 1 := rfl

theorem weight_resume (frame : Frame) (e : Expr) : (frame.resume e).weight ≤ 2 := by
  cases frame <;> simp [Frame.resume, Control.weight]

/-! ## One step -/

/-- A table of operators has all symbols at which its loop goes on. -/
theorem exists_operator {tier : Tier} {s : Symbol} (h : s ∈ linkSymbols tier) : ∃ op, tier.operator? s = some op := by
  cases tier <;> cases s <;> first | exact ⟨_, rfl⟩ | exact absurd h (by decide)

theorem exists_sign {s : Symbol} (h : s ∈ signSymbols) : ∃ sign, Reader.sign? s = some sign := by
  cases s <;> first | exact ⟨_, rfl⟩ | exact absurd h (by decide)

/-- Everything that is done on an item: it is no end mark and is passed, or what comes weighs less and is a call if this
was one; or the text has been read, or it has a fault. -/
inductive Acts (point : Point) (item : Item) : Except Halt Move → Prop
  | passes (control : Control) (frames : List Frame) (unmarked : item ≠ .finish) :
      Acts point item (.ok ⟨control, true, frames⟩)
  | stays (control : Control) (frames : List Frame)
      (lighter : control.weight + 3 * frames.length < (Control.look point).weight)
      (called : (Control.look point).isCall = true → control.isCall = true) :
      Acts point item (.ok ⟨control, false, frames⟩)
  | parsed (e : Expr) : Acts point item (.error (.parsed e))
  | fault (fault : GrammarFault) (position : Nat) : Acts point item (.error (.fault fault position))
  | unexpected (text : String) (position : Nat) : Acts point item (.error (.unexpected text position))
  | notNumber (text : String) : Acts point item (.error (.notNumber text))

section
variable {point : Point} {item : Item} {control : Control}

theorem acts_unexpected (position : Nat) (item : Item) : Acts point item (unexpected position item) := by
  unfold unexpected
  split_ifs
  · exact .fault _ _
  · exact .fault _ _
  · exact .unexpected _ _

theorem acts_takeEntry {α : Type} {entry : Option α} (h : ∃ a, entry = some a) (control : Control) (frame : α → Frame)
    (s : Symbol) : Acts point (.symbol s) (takeEntry entry control frame) := by
  obtain ⟨a, rfl⟩ := h
  exact .passes _ _ nofun

end

theorem acts (number? : String → Option Binary64) (position : Nat) (point : Point) (item : Item) :
    Acts point item (point.act number? position item) := by
  -- the lines of the definition in their order, a choice within one counted twice
  fun_cases Point.act number? position point item with
  | case3 s h => exact acts_takeEntry (exists_sign h) _ _ _
  | case14 tier left s h => exact acts_takeEntry (exists_operator h) _ _ _
  | case6 | case8 | case9 | case17 | case25 | case23 | case29 => exact .passes _ _ nofun
  | case7 => exact .notNumber _
  | case2 | case4 | case5 | case13 => exact .stays _ _ (by decide) (by decide)
  | case15 | case16 | case18 | case21 | case24 | case30 => exact .stays _ _ (by simp [Control.weight]) nofun
  | case20 | case22 => exact .stays _ _ (by simp [Control.call, Control.weight]) nofun
  | case10 | case27 | case32 => exact acts_unexpected _ _
  | case1 | case11 | case12 | case19 | case26 | case28 => exact .fault _ _
  | case31 e => exact .parsed e

inductive Goes (items : List Item) (s : State) : Except Halt State → Prop
  | passes {s' : State} {item : Item} (passed : s'.position = s.position + 1)
      (found : items[s.position]? = some item) (unmarked : item ≠ .finish) : Goes items s (.ok s')
  | stays {s' : State} (stayed : s'.position = s.position) (lighter : s'.weight < s.weight)
      (called : s.control.isCall = true → s'.control.isCall = true ∧ s'.control.weight < s.control.weight) :
      Goes items s (.ok s')
  | parsed (e : Expr) : Goes items s (.error (.parsed e))
  | fault (fault : GrammarFault) (position : Nat) : Goes items s (.error (.fault fault position))
  | unexpected (text : String) (position : Nat) : Goes items s (.error (.unexpected text position))
  | notNumber (text : String) : Goes items s (.error (.notNumber text))
  | outOfRange (none : items[s.position]? = none) : Goes items s (.error .outOfRange)

section
variable (number? : String → Option Binary64)

theorem goes_look (items : List Item) (point : Point) (position : Nat) (stack : List Frame) :
    Goes items ⟨.look point, position, stack⟩ (step number? items ⟨.look point, position, stack⟩) := by
  rw [step]
  cases hitem : items[position]? with
  | none => exact .outOfRange hitem
  | some item =>
    have hacts := acts number? position point item
    dsimp only
    revert hacts
    generalize point.act number? position item = outcome
    intro hacts
    cases hacts with
    | passes control frames unmarked => exact .passes rfl hitem unmarked
    | stays control frames lighter called =>
      refine .stays rfl ?_ fun hcall => ⟨called hcall, Nat.lt_of_le_of_lt (Nat.le_add_right _ _) lighter⟩
      simp only [State.weight, List.length_append]
      omega
    | parsed e => exact .parsed e
    | fault f p => exact .fault f p
    | unexpected text p => exact .unexpected text p
    | notNumber text => exact .notNumber text

theorem goes (items : List Item) : ∀ s : State, Goes items s (step number? items s)
  | ⟨.chain tier, position, stack⟩ => by
    have hweight := weight_operand tier
    refine .stays rfl ?_ fun _ => ⟨isCall_call _, by dsimp only; omega⟩
    simp only [State.weight, List.length_cons]
    omega
  | ⟨.power, position, stack⟩ => by
    have hweight : (Control.call .primary).weight + 4 = Control.power.weight := rfl
    refine .stays rfl ?_ fun _ => ⟨rfl, by dsimp only; omega⟩
    simp only [State.weight, List.length_cons]
    omega
  | ⟨.returned e, position, []⟩ => .stays rfl (by simp [State.weight, Control.weight]) nofun
  | ⟨.returned e, position, frame :: stack⟩ => by
    have hweight := weight_resume frame e
    refine .stays rfl ?_ nofun
    simp only [State.weight, List.length_cons, weight_returned]
    omega
  | ⟨.look point, position, stack⟩ => goes_look number? items point position stack

end

/-! ## Runs -/

section
variable {number? : String → Option Binary64} {items : List Item} {s s' : State}

theorem step_cases (h : Step number? items s s') :
    (s'.position = s.position + 1 ∧ ∃ item, items[s.position]? = some item ∧ item ≠ .finish) ∨
      s'.position = s.position ∧ s'.weight < s.weight ∧
        (s.control.isCall = true → s'.control.isCall = true ∧ s'.control.weight < s.control.weight) := by
  have hgoes := goes number? items s
  rw [h] at hgoes
  cases hgoes with
  | passes passed found unmarked => exact .inl ⟨passed, _, found, unmarked⟩
  | stays stayed lighter called => exact .inr ⟨stayed, lighter, called⟩

/-- What comes up again without a token passed weighs less. -/
theorem passed_or_lighter (h : Relation.TransGen (Step number? items) s s') :
    s.position < s'.position ∨ s'.position = s.position ∧ s'.weight < s.weight := by
  induction h with
  | single h =>
    rcases step_cases h with ⟨hpassed, -⟩ | ⟨hstayed, hlighter, -⟩
    · exact .inl (by omega)
    · exact .inr ⟨hstayed, hlighter⟩
  | tail _ h ih =>
    rcases step_cases h with ⟨hpassed, -⟩ | ⟨hstayed, hlighter, -⟩ <;> omega

theorem passed_or_called (h : Relation.TransGen (Step number? items) s s') (hcall : s.control.isCall = true) :
    s.position < s'.position ∨
      s'.position = s.position ∧ s'.control.isCall = true ∧ s'.control.weight < s.control.weight := by
  induction h with
  | single h =>
    rcases step_cases h with ⟨hpassed, -⟩ | ⟨hstayed, -, hcalled⟩
    · exact .inl (by omega)
    · exact .inr ⟨hstayed, hcalled hcall⟩
  | tail _ h ih =>
    rcases step_cases h with ⟨hpassed, -⟩ | ⟨hstayed, -, hcalled⟩
    · exact .inl (by omega)
    · rcases ih with hlt | ⟨heq, hc, hlighter⟩
      · exact .inl (by omega)
      · obtain ⟨hc', hlighter'⟩ := hcalled hc
        exact .inr ⟨hstayed.trans heq, hc', hlighter'.trans hlighter⟩

variable (number? items) in
theorem wellFounded_step : WellFounded fun s' s => Step number? items s s' := by
  refine Subrelation.wf ?_ (InvImage.wf (fun s : State => (items.length - s.position, s.weight))
    (Prod.lex Nat.lt_wfRel Nat.lt_wfRel).wf)
  intro s' s h
  refine Prod.lex_def.mpr ?_
  rcases step_cases h with ⟨hpassed, item, hitem, -⟩ | ⟨hstayed, hlighter, -⟩
  · obtain ⟨hlt, -⟩ := List.getElem?_eq_some_iff.mp hitem
    left
    show items.length - s'.position < items.length - s.position
    omega
  · exact .inr ⟨congrArg (items.length - ·) hstayed, hlighter⟩

theorem exists_ends (number? : String → Option Binary64) (items : List Item) (s : State) :
    ∃ h, Ends number? items s h := by
  induction s using (wellFounded_step number? items).induction with
  | _ s ih =>
    cases hs : step number? items s with
    | error h => exact ⟨h, s, .refl, hs⟩
    | ok next =>
      obtain ⟨h, s', hsteps, hhalt⟩ := ih next hs
      exact ⟨h, s', .head hs hsteps, hhalt⟩

theorem lt_of_called_again {control : Control} {position position' : Nat} {stack stack' : List Frame}
    (hcall : control.isCall = true)
    (h : Relation.TransGen (Step number? items) ⟨control, position, stack⟩ ⟨control, position', stack'⟩) :
    position < position' := by
  rcases passed_or_called h hcall with hlt | ⟨-, -, hlighter⟩
  · exact hlt
  · exact absurd hlighter (Nat.lt_irrefl _)

theorem lt_of_looped {point point' : Point} {position position' : Nat} {stack : List Frame}
    (hloop : point.SameLoop point')
    (h : Relation.TransGen (Step number? items) ⟨.look point, position, stack⟩ ⟨.look point', position', stack⟩) :
    position < position' := by
  rcases passed_or_lighter h with hlt | ⟨-, hlighter⟩
  · exact hlt
  · rw [State.weight, State.weight, weight_of_sameLoop hloop] at hlighter
    exact absurd hlighter (Nat.lt_irrefl _)

theorem lt_of_returned {control : Control} {position position' : Nat} {stack stack' : List Frame} {e : Expr}
    (hcall : control.isCall = true)
    (h : Steps number? items ⟨control, position, stack⟩ ⟨.returned e, position', stack'⟩) : position < position' := by
  rcases Relation.reflTransGen_iff_eq_or_transGen.mp h with heq | htrans
  · cases heq
    cases hcall
  · rcases passed_or_called htrans hcall with hlt | ⟨-, hcalled, -⟩
    · exact hlt
    · cases hcalled

end

/-! ## Bounds -/

section
variable {number? : String → Option Binary64} {front : List Item} {s s' : State}

theorem lt_of_unmarked {position : Nat} {item : Item} (h : (front ++ [.finish])[position]? = some item)
    (unmarked : item ≠ .finish) : position < front.length := by
  by_contra hnot
  rw [List.getElem?_append_right (Nat.le_of_not_lt hnot)] at h
  exact unmarked (List.mem_singleton.mp (List.mem_of_getElem? h))

/-- The mark is looked at and never passed. -/
theorem step_inBounds (hs : s.position ≤ front.length) :
    step number? (front ++ [.finish]) s ≠ .error .outOfRange ∧ step number? (front ++ [.finish]) s ≠ .error .noEntry ∧
      ∀ s', step number? (front ++ [.finish]) s = .ok s' → s'.position ≤ front.length := by
  have hgoes := goes number? (front ++ [.finish]) s
  revert hgoes
  generalize step number? (front ++ [.finish]) s = outcome
  intro hgoes
  cases hgoes with
  | passes passed found unmarked =>
    refine ⟨nofun, nofun, ?_⟩
    rintro _ ⟨⟩
    rw [passed]
    exact lt_of_unmarked found unmarked
  | stays stayed =>
    refine ⟨nofun, nofun, ?_⟩
    rintro _ ⟨⟩
    rwa [stayed]
  | parsed | fault | unexpected | notNumber => exact ⟨nofun, nofun, nofun⟩
  | outOfRange hnone =>
    rw [List.getElem?_eq_none_iff, List.length_append, List.length_singleton] at hnone
    omega

theorem steps_inBounds (h : Steps number? (front ++ [.finish]) s s') (hs : s.position ≤ front.length) :
    s'.position ≤ front.length := by
  induction h with
  | refl => exact hs
  | tail _ h ih => exact (step_inBounds ih).2.2 _ h

theorem ends_inBounds {h : Halt} (he : Ends number? (front ++ [.finish]) s h) (hs : s.position ≤ front.length) :
    h ≠ .outOfRange ∧ h ≠ .noEntry := by
  obtain ⟨s', hsteps, hhalt⟩ := he
  obtain ⟨hrange, hentry, -⟩ := step_inBounds (steps_inBounds hsteps hs)
  rw [hhalt] at hrange hentry
  exact ⟨fun h => hrange (congrArg _ h), fun h => hentry (congrArg _ h)⟩

end

end Calculator.Descent
