import Calculator.Expr.Description
import Calculator.Expr.Dump

/-!
# Heights of trees

A task that takes a level of the stack for every node succeeds at a limit exactly if the limit is not below the height
of the tree, whatever the tree holds. `describeWithin_eq`: so it is with descriptions, and one that is given at two
limits is the same at both.
-/

namespace Calculator

/-! ## Results that need room -/

/-- A result that the stack has to have room for, at a limit. -/
def roomFor {α : Type} (needed limit : Nat) (error : WriteError) (a : α) : Except WriteError α :=
  if needed ≤ limit then .ok a else .error error

section
variable {α β : Type} {limit : Nat} {error : WriteError}

theorem roomFor_of_le {needed : Nat} (h : needed ≤ limit) (a : α) : roomFor needed limit error a = .ok a := if_pos h

theorem roomFor_of_lt {needed : Nat} (h : limit < needed) (a : α) : roomFor needed limit error a = .error error :=
  if_neg (Nat.not_le.mpr h)

theorem roomFor_eq_ok {needed : Nat} {a b : α} (h : roomFor needed limit error a = .ok b) :
    needed ≤ limit ∧ a = b := by
  rcases Nat.lt_or_ge limit needed with hlt | hle
  · rw [roomFor_of_lt hlt] at h
    cases h
  · rw [roomFor_of_le hle] at h
    exact ⟨hle, Except.ok.inj h⟩

theorem roomFor_succ (needed : Nat) (a : α) :
    roomFor (needed + 1) (limit + 1) error a = roomFor needed limit error a := by
  simp only [roomFor, Nat.add_le_add_iff_right]

theorem roomFor_one (a : α) : roomFor 1 (limit + 1) error a = .ok a := roomFor_of_le (Nat.le_add_left 1 limit) a

theorem roomFor_bind (m n : Nat) (a : α) (f : α → β) :
    (roomFor m limit error a).bind (fun x => roomFor n limit error (f x)) = roomFor (max m n) limit error (f a) := by
  rcases Nat.lt_or_ge limit m with hm | hm
  · rw [roomFor_of_lt hm, roomFor_of_lt (Nat.lt_of_lt_of_le hm (Nat.le_max_left m n))]
    rfl
  · rw [roomFor_of_le hm]
    simp only [Except.bind, roomFor, Nat.max_le, hm, true_and]

theorem roomFor_map (needed : Nat) (a : α) (f : α → β) :
    (roomFor needed limit error a).bind (fun x => .ok (f x)) = roomFor needed limit error (f a) := by
  unfold roomFor
  split <;> rfl

end

namespace Expr

mutual

/-- How many nodes there are on the longest way down a tree. -/
def height : Expr → Nat
  | number _ => 1
  | name _ => 1
  | signed _ e => e.height + 1
  | binary _ l r => max l.height r.height + 1
  | group e => e.height + 1
  | call _ args => heights args + 1
  | foreign _ => 1

def heights : List Expr → Nat
  | [] => 0
  | e :: es => max e.height (heights es)

end

theorem height_pos (e : Expr) : 0 < e.height := by
  cases e <;> simp [height]

theorem mapM_roomFor {α : Type} {limit : Nat} {error : WriteError} {task : Expr → Except WriteError α}
    {result : Expr → α} : ∀ {es : List Expr}, (∀ e ∈ es, task e = roomFor e.height limit error (result e)) →
      es.mapM task = roomFor (heights es) limit error (es.map result)
  | [], _ => (if_pos (Nat.zero_le limit)).symm
  | e :: es, h => by
    rw [List.forall_mem_cons] at h
    rw [List.mapM_cons, h.1, mapM_roomFor h.2, heights, List.map_cons]
    exact (congrArg _ (funext fun x => roomFor_map _ _ _)).trans (roomFor_bind e.height (heights es) _ _)

/-! ## Descriptions -/

mutual

/-- The description that a tree has at every limit that admits one. -/
def description : Expr → String
  | number x => "Literal(value=" ++ x.text ++ ")"
  | name n => "Identifier(name=" ++ Text.quoted n ++ ")"
  | signed s e => "Unary(op=" ++ s.description ++ ", operand=" ++ e.description ++ ")"
  | binary op l r =>
    "Binary(op=" ++ op.description ++ ", left=" ++ l.description ++ ", right=" ++ r.description ++ ")"
  | group e => "Grouping(inner=" ++ e.description ++ ")"
  | call f args => "Call(name=" ++ Text.quoted f ++ ", args=" ++ Text.listing (descriptions args) ++ ")"
  | foreign kind => kind

def descriptions : List Expr → List String
  | [] => []
  | e :: es => e.description :: descriptions es

end

theorem descriptions_eq_map (es : List Expr) : descriptions es = es.map description := by
  induction es with
  | nil => rfl
  | cons e es ih => rw [descriptions, ih, List.map_cons]

/-- A description takes a level for each node on the way down, along chains of operators too. -/
theorem describeWithin_eq (limit : Nat) (e : Expr) :
    e.describeWithin limit = roomFor e.height limit descriptionOverflow e.description := by
  induction limit generalizing e with
  | zero => exact (if_neg (Nat.not_le.mpr e.height_pos)).symm
  | succ limit ih =>
    cases e with
    | number x => exact (roomFor_one _).symm
    | name n => exact (roomFor_one _).symm
    | foreign kind => exact (roomFor_one _).symm
    | signed s operand =>
      rw [describeWithin, ih, height, roomFor_succ]
      exact roomFor_map _ _ _
    | group inner =>
      rw [describeWithin, ih, height, roomFor_succ]
      exact roomFor_map _ _ _
    | binary op left right =>
      rw [describeWithin, ih, ih, height, roomFor_succ]
      exact (congrArg _ (funext fun x => roomFor_map _ _ _)).trans (roomFor_bind left.height right.height _ _)
    | call f args =>
      rw [describeWithin, mapM_roomFor fun e _ => ih e, height, roomFor_succ, ← descriptions_eq_map]
      exact roomFor_map _ _ _

end Expr
end Calculator
