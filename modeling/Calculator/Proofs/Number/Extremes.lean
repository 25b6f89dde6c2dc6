import Calculator.Evaluation.Environment
import Calculator.Proofs.Number.Order
import Mathlib.Data.Prod.Lex
import Mathlib.Order.Lattice

/-!
# The larger and the smaller of two doubles

`max_min_lattice`: `max` and `min` give the larger and the smaller of two numbers in linear orders of all of them, which
differ in the place of NaN alone. Nested over many numbers they therefore give the largest and the smallest of these.
-/

namespace Calculator

/-! ## Nested operations -/

section
variable {α : Type}

/-- An operation nested over a list of values, from the left to the right, comes to a value. -/
inductive Nests (f : α → α → α) : List α → α → Prop
  | value (x : α) : Nests f [x] x
  | apply {xs ys : List α} {a b : α} (left : Nests f xs a) (right : Nests f ys b) : Nests f (xs ++ ys) (f a b)

theorem exists_nests (f : α → α → α) : ∀ {xs : List α}, xs ≠ [] → ∃ a, Nests f xs a
  | [], h => absurd rfl h
  | [x], _ => ⟨x, .value x⟩
  | x :: y :: xs, _ => by
    obtain ⟨a, ha⟩ := exists_nests f (List.cons_ne_nil y xs)
    exact ⟨f x a, .apply (.value x) ha⟩

/-- What a lattice operation does to two values and, nested in whatever way, to many. -/
structure LatticeOperation (f : α → α → α) : Prop where
  comm : ∀ x y, f x y = f y x
  assoc : ∀ x y z, f (f x y) z = f x (f y z)
  idem : ∀ x, f x x = x
  nested : ∀ xs, xs ≠ [] → ∃ a ∈ xs, ∀ ys, ys.Perm xs → ∀ b, Nests f ys b ↔ b = a

variable [LinearOrder α]

theorem Nests.isGreatest {xs : List α} {a : α} (h : Nests max xs a) : a ∈ xs ∧ ∀ x ∈ xs, x ≤ a := by
  induction h with
  | value x => simp
  | @apply xs ys a b _ _ ihl ihr =>
    obtain ⟨ha, hxs⟩ := ihl
    obtain ⟨hb, hys⟩ := ihr
    constructor
    · rcases max_choice a b with h | h <;> rw [h] <;> simp [ha, hb]
    · intro x hx
      rcases List.mem_append.mp hx with hx | hx
      · exact le_max_of_le_left (hxs x hx)
      · exact le_max_of_le_right (hys x hx)

theorem latticeOperation_max : LatticeOperation (max : α → α → α) where
  comm := max_comm
  assoc := max_assoc
  idem := max_self
  nested := fun xs hne => by
    obtain ⟨a, ha⟩ := exists_nests max hne
    refine ⟨a, ha.isGreatest.1, fun ys hperm b => ?_⟩
    have hunique : ∀ b, Nests max ys b → b = a := fun b hb =>
      le_antisymm (ha.isGreatest.2 b (hperm.mem_iff.mp hb.isGreatest.1))
        (hb.isGreatest.2 a (hperm.mem_iff.mpr ha.isGreatest.1))
    constructor
    · exact hunique b
    · rintro rfl
      have hys : ys ≠ [] := by
        rintro rfl
        exact hne hperm.nil_eq.symm
      obtain ⟨c, hc⟩ := exists_nests max hys
      rwa [hunique c hc] at hc

theorem latticeOperation_min : LatticeOperation (min : α → α → α) := latticeOperation_max (α := αᵒᵈ)

end

namespace Binary64

/-! ## Two orders -/

def level (nanLevel : ℕ) : Binary64 → ℕ
  | infinite true => 0
  | finite _ _ => 2
  | infinite false => 4
  | nan => nanLevel

/-- The place of a number: the infinities are outermost, finite numbers stand between them by value, the negative zero
before the positive one, and NaN is on the level given. -/
def place (nanLevel : ℕ) (x : Binary64) : ℕ ×ₗ ℚ ×ₗ ℕ :=
  toLex (x.level nanLevel, toLex (x.toRat?.getD 0, if x.isNegative then 0 else 1))

section
variable {nanLevel : ℕ} {x y : Binary64}

theorem place_le_iff : x.place nanLevel ≤ y.place nanLevel ↔
    x.level nanLevel < y.level nanLevel ∨ x.level nanLevel = y.level nanLevel ∧
      (x.toRat?.getD 0 < y.toRat?.getD 0 ∨ x.toRat?.getD 0 = y.toRat?.getD 0 ∧
        (if x.isNegative then 0 else 1) ≤ if y.isNegative then 0 else 1) := by
  simp only [place, Prod.Lex.toLex_le_toLex]

theorem place_le_of_level_lt (h : x.level nanLevel < y.level nanLevel) : x.place nanLevel ≤ y.place nanLevel :=
  place_le_iff.mpr (.inl h)

theorem place_le_iff_of_toRat? {p q : ℚ} (hx : x.toRat? = some p) (hy : y.toRat? = some q) :
    x.place nanLevel ≤ y.place nanLevel ↔ p < q ∨ p = q ∧ (y.isNegative = true → x.isNegative = true) := by
  rw [place_le_iff, hx, hy]
  obtain ⟨s, m, rfl, -⟩ := eq_finite_of_toRat? hx
  obtain ⟨t, n, rfl, -⟩ := eq_finite_of_toRat? hy
  simp only [level, isNegative, Nat.lt_irrefl, Option.getD_some, false_or, true_and]
  cases s <;> cases t <;> simp

theorem level_eq_two_iff (h : nanLevel = 1 ∨ nanLevel = 3) : x.level nanLevel = 2 ↔ ∃ q, x.toRat? = some q := by
  cases x with
  | nan => exact iff_of_false (by rcases h with rfl | rfl <;> decide) (by rintro ⟨_, ⟨⟩⟩)
  | infinite s => exact iff_of_false (by cases s <;> simp [level]) (by rintro ⟨_, ⟨⟩⟩)
  | finite s m => exact iff_of_true rfl ⟨_, toRat?_finite s m⟩

theorem eq_or_finite_of_level_eq (h : nanLevel = 1 ∨ nanLevel = 3) (hl : x.level nanLevel = y.level nanLevel) :
    x = y ∨ ∃ p q, x.toRat? = some p ∧ y.toRat? = some q := by
  by_cases hfinite : x.level nanLevel = 2
  · obtain ⟨p, hx⟩ := (level_eq_two_iff h).mp hfinite
    obtain ⟨q, hy⟩ := (level_eq_two_iff h).mp (hl ▸ hfinite)
    exact .inr ⟨p, q, hx, hy⟩
  · left
    rcases h with rfl | rfl <;> rcases x with _ | (_ | _) | ⟨s, m⟩ <;> rcases y with _ | (_ | _) | ⟨t, n⟩ <;>
      simp_all [level]

theorem place_injective (h : nanLevel = 1 ∨ nanLevel = 3) : Function.Injective (place nanLevel) := by
  intro x y hxy
  have hlevel : x.level nanLevel = y.level nanLevel := congrArg (fun z => (ofLex z).1) hxy
  rcases eq_or_finite_of_level_eq h hlevel with heq | ⟨p, q, hx, hy⟩
  · exact heq
  · have hle := (place_le_iff_of_toRat? hx hy).mp hxy.le
    have hge := (place_le_iff_of_toRat? hy hx).mp hxy.ge
    obtain rfl : p = q := by
      rcases hle with h | h
      · rcases hge with h' | h'
        · exact absurd h h'.asymm
        · exact h'.1.symm
      · exact h.1
    simp only [lt_irrefl, true_and, false_or] at hle hge
    exact eq_of_toRat? hx hy (Bool.eq_iff_iff.mpr ⟨hge, hle⟩)

end

abbrev orderAt (nanLevel : ℕ) (h : nanLevel = 1 ∨ nanLevel = 3) : LinearOrder Binary64 :=
  LinearOrder.lift' (place nanLevel) (place_injective h)

/-- The order in which NaN is above every finite number. -/
abbrev orderOfMax : LinearOrder Binary64 := orderAt 3 (.inr rfl)

/-- The order in which NaN is below every finite number. -/
abbrev orderOfMin : LinearOrder Binary64 := orderAt 1 (.inl rfl)

/-- An order of the numbers other than NaN: by value between the infinities, the negative zero before the positive. -/
structure OrdersNumbers (order : LinearOrder Binary64) : Prop where
  least : ∀ x, order.le (infinite true) x
  greatest : ∀ x, order.le x (infinite false)
  finite : ∀ x y p q, x.toRat? = some p → y.toRat? = some q →
    (order.lt x y ↔ p < q ∨ p = q ∧ x.isNegative = true ∧ y.isNegative = false)

theorem ordersNumbers {nanLevel : ℕ} (h : nanLevel = 1 ∨ nanLevel = 3) : OrdersNumbers (orderAt nanLevel h) where
  least := fun x => by
    show (infinite true).place nanLevel ≤ x.place nanLevel
    rw [place_le_iff]
    rcases h with rfl | rfl <;> rcases x with _ | (_ | _) | ⟨s, m⟩ <;> simp [level]
  greatest := fun x => by
    show x.place nanLevel ≤ (infinite false).place nanLevel
    rw [place_le_iff]
    rcases h with rfl | rfl <;> rcases x with _ | (_ | _) | ⟨s, m⟩ <;> simp [level]
  finite := fun x y p q hx hy => by
    rw [@lt_iff_not_ge _ (orderAt nanLevel h)]
    show ¬ y.place nanLevel ≤ x.place nanLevel ↔ _
    rw [place_le_iff_of_toRat? hy hx]
    rcases lt_trichotomy p q with hlt | rfl | hgt
    · simp [hlt, hlt.asymm, hlt.ne']
    · simp
    · simp [hgt, hgt.asymm, hgt.ne']

/-! ## The larger of two -/

section
variable {x y : Binary64} {a b : ℤ}

theorem lt_iff_of_rank? (hx : x.rank? = some a) (hy : y.rank? = some b) : x.lt y = true ↔ a < b := by
  rw [lt, hx, hy, decide_eq_true_eq]

theorem rank_lt_iff {p q : ℚ} (hp : x.toRat? = some p) (hq : y.toRat? = some q) (hx : x.rank? = some a)
    (hy : y.rank? = some b) : a < b ↔ p < q := by
  rw [← lt_iff_of_rank? hx hy, lt_iff hp hq]

theorem rank_eq_iff {p q : ℚ} (hp : x.toRat? = some p) (hq : y.toRat? = some q) (hx : x.rank? = some a)
    (hy : y.rank? = some b) : a = b ↔ p = q := by
  rw [le_antisymm_iff, le_antisymm_iff, ← not_lt, ← not_lt, ← not_lt, ← not_lt, rank_lt_iff hp hq hx hy,
    rank_lt_iff hq hp hy hx]

theorem isZero_iff_of_rank? (hx : x.rank? = some a) : x.isZero = true ↔ a = 0 := by
  rw [isZero, hx, beq_iff_eq, Option.some.injEq]

theorem isNegative_iff_of_rank? (hx : x.rank? = some a) (ha : a ≠ 0) : x.isNegative = true ↔ a < 0 := by
  rcases x with _ | (_ | _) | ⟨_ | _, m⟩ <;> simp only [rank?, Option.some.injEq, reduceCtorEq, Bool.false_eq_true,
    ↓reduceIte] at hx <;> simp [isNegative] <;> omega

theorem place_le_iff_of_rank? (hx : x.rank? = some a) (hy : y.rank? = some b) :
    x.place 3 ≤ y.place 3 ↔ a < b ∨ a = b ∧ (y.isNegative = true → x.isNegative = true) := by
  cases x with
  | nan => cases hx
  | infinite s =>
    cases y with
    | nan => cases hy
    | infinite t => cases s <;> cases t <;> cases hx <;> cases hy <;> simp [place_le_iff, level, toRat?, isNegative]
    | finite t n =>
      obtain ⟨hlow, hhigh⟩ := signed_bounds t n
      cases hy
      cases s with
      | true =>
        cases hx
        exact iff_of_true (place_le_of_level_lt (by simp [level])) (.inl hlow)
      | false =>
        cases hx
        exact iff_of_false (by simp [place_le_iff, level]) (by rintro (h | ⟨h, -⟩); exacts [h.asymm hhigh, hhigh.ne' h])
  | finite s m =>
    cases y with
    | nan => cases hy
    | infinite t =>
      obtain ⟨hlow, hhigh⟩ := signed_bounds s m
      cases hx
      cases t with
      | true =>
        cases hy
        exact iff_of_false (by simp [place_le_iff, level]) (by rintro (h | ⟨h, -⟩); exacts [h.asymm hlow, hlow.ne' h])
      | false =>
        cases hy
        exact iff_of_true (place_le_of_level_lt (by simp [level])) (.inl hhigh)
    | finite t n =>
      rw [place_le_iff_of_toRat? (toRat?_finite s m) (toRat?_finite t n),
        rank_lt_iff (toRat?_finite s m) (toRat?_finite t n) hx hy,
        rank_eq_iff (toRat?_finite s m) (toRat?_finite t n) hx hy]

end

theorem place_le_nan {x : Binary64} (h : x ≠ infinite false) : x.place 3 ≤ nan.place 3 := by
  rw [place_le_iff]
  rcases x with _ | (_ | _) | ⟨s, m⟩ <;> simp_all [level]

theorem max_spec_of_rank? {x y : Binary64} {a b : ℤ} (hx : x.rank? = some a) (hy : y.rank? = some b)
    (hxtop : x ≠ infinite false) (hytop : y ≠ infinite false) :
    x.max y = y ∧ x.place 3 ≤ y.place 3 ∨ x.max y = x ∧ y.place 3 ≤ x.place 3 := by
  have hxn : x.isNaN = false := by cases x <;> simp_all [rank?, isNaN]
  have hyn : y.isNaN = false := by cases y <;> simp_all [rank?, isNaN]
  rw [place_le_iff_of_rank? hx hy, place_le_iff_of_rank? hy hx]
  simp only [max, hxtop, hytop, or_self, hxn, hyn, Bool.or_self, Bool.false_eq_true, ↓reduceIte, Bool.and_eq_true,
    isZero_iff_of_rank? hx, isZero_iff_of_rank? hy, lt_iff_of_rank? hy hx]
  split
  · rename_i hzero
    obtain ⟨rfl, rfl⟩ := hzero
    split
    · rename_i hneg
      exact .inl ⟨rfl, .inr ⟨rfl, fun _ => hneg⟩⟩
    · rename_i hneg
      exact .inr ⟨rfl, .inr ⟨rfl, fun h => absurd h hneg⟩⟩
  · rename_i hzero
    split
    · rename_i hlt
      exact .inr ⟨rfl, .inl hlt⟩
    · rename_i hle
      rcases lt_or_eq_of_le (not_lt.mp hle) with hlt | rfl
      · exact .inl ⟨rfl, .inl hlt⟩
      · -- equal numbers other than zero have the same sign
        have hne : a ≠ 0 := fun h => hzero ⟨h, h⟩
        exact .inl ⟨rfl, .inr ⟨rfl, fun h => (isNegative_iff_of_rank? hx hne).mpr
          ((isNegative_iff_of_rank? hy hne).mp h)⟩⟩

theorem max_spec (x y : Binary64) :
    x.max y = y ∧ x.place 3 ≤ y.place 3 ∨ x.max y = x ∧ y.place 3 ≤ x.place 3 := by
  by_cases hx : x = infinite false
  · subst hx
    exact .inr ⟨by simp [max], (ordersNumbers (.inr rfl)).greatest y⟩
  by_cases hy : y = infinite false
  · subst hy
    exact .inl ⟨by simp [max], (ordersNumbers (.inr rfl)).greatest x⟩
  cases hxr : x.rank? with
  | none =>
    obtain rfl : x = nan := by cases x <;> simp_all [rank?]
    exact .inr ⟨by simp [max, hy, isNaN], place_le_nan hy⟩
  | some a =>
    cases hyr : y.rank? with
    | none =>
      obtain rfl : y = nan := by cases y <;> simp_all [rank?]
      exact .inl ⟨by simp [max, hx, isNaN], place_le_nan hx⟩
    | some b => exact max_spec_of_rank? hxr hyr hx hy

theorem max_eq (x y : Binary64) : x.max y = @Max.max _ orderOfMax.toMax x y := by
  rw [@max_def _ orderOfMax]
  split
  · rename_i hle
    rcases max_spec x y with ⟨h, -⟩ | ⟨h, hge⟩
    · exact h
    · rw [h]
      exact place_injective (.inr rfl) (le_antisymm hle hge)
  · rename_i hnle
    rcases max_spec x y with ⟨-, hle⟩ | ⟨h, -⟩
    · exact absurd hle hnle
    · exact h

/-! ## The smaller of two -/

theorem rank?_neg : ∀ x : Binary64, (-x).rank? = x.rank?.map (- ·)
  | nan => rfl
  | infinite true | infinite false => rfl
  | finite true m => congrArg some (Int.neg_neg m).symm
  | finite false _ => rfl

theorem isZero_neg (x : Binary64) : (-x).isZero = x.isZero := by
  rw [isZero, isZero, rank?_neg]
  cases x.rank? with
  | none => rfl
  | some a => simp

theorem lt_neg (x y : Binary64) : (-x).lt (-y) = y.lt x := by
  rw [lt, lt, rank?_neg, rank?_neg]
  cases x.rank? <;> cases y.rank? <;> simp

theorem neg_eq_iff {x y : Binary64} : -x = y ↔ x = -y :=
  ⟨fun h => by rw [← h, neg_neg], fun h => by rw [h, neg_neg]⟩

theorem min_eq_neg_max (x y : Binary64) : x.min y = -((-x).max (-y)) := by
  have hnan : ∀ z : Binary64, (-z).isNaN = z.isNaN := fun z => by cases z <;> rfl
  simp only [min, max, neg_eq_iff, neg_infinite, Bool.not_false, hnan, isZero_neg, lt_neg]
  split
  · rfl
  split
  · rfl
  split
  · rename_i hzero
    obtain ⟨s, m, rfl⟩ : ∃ s m, x = finite s m := by
      rcases x with _ | (_ | _) | ⟨s, m⟩
      · exact absurd hzero (by simp [isZero, rank?])
      · exact absurd hzero (by simp [isZero, rank?, finiteCount])
      · exact absurd hzero (by simp [isZero, rank?, finiteCount])
      · exact ⟨s, m, rfl⟩
    cases s <;> simp [isNegative, neg_neg]
  · split <;> rw [neg_neg]

theorem place_neg_le_iff {x y : Binary64} : (-y).place 3 ≤ (-x).place 3 ↔ x.place 1 ≤ y.place 1 := by
  by_cases hfinite : x.level 1 = 2 ∧ y.level 1 = 2
  · obtain ⟨p, hx⟩ := (level_eq_two_iff (.inl rfl)).mp hfinite.1
    obtain ⟨q, hy⟩ := (level_eq_two_iff (.inl rfl)).mp hfinite.2
    rw [place_le_iff_of_toRat? hx hy, place_le_iff_of_toRat? (toRat?_neg hy) (toRat?_neg hx)]
    obtain ⟨s, m, rfl, -⟩ := eq_finite_of_toRat? hx
    obtain ⟨t, n, rfl, -⟩ := eq_finite_of_toRat? hy
    cases s <;> cases t <;> simp [isNegative, eq_comm]
  · rw [place_le_iff, place_le_iff]
    rcases x with _ | (_ | _) | ⟨s, m⟩ <;> rcases y with _ | (_ | _) | ⟨t, n⟩ <;> simp_all [level, isNegative]

theorem min_eq (x y : Binary64) : x.min y = @Min.min _ orderOfMin.toMin x y := by
  have hle : (-x).place 3 ≤ (-y).place 3 ↔ y.place 1 ≤ x.place 1 := place_neg_le_iff
  rw [min_eq_neg_max, max_eq, @max_def _ orderOfMax, @min_def' _ orderOfMin]
  show -(if (-x).place 3 ≤ (-y).place 3 then -y else -x) = if y.place 1 ≤ x.place 1 then y else x
  simp only [hle]
  split <;> exact neg_neg _

/-! ## The two lattices -/

theorem max_min_lattice :
    (∃ b, FunctionTable.standard.find? "max" = some b ∧ b.arity = 2 ∧ ∀ x y, b.apply [x, y] = .ok (x.max y)) ∧
    (∃ b, FunctionTable.standard.find? "min" = some b ∧ b.arity = 2 ∧ ∀ x y, b.apply [x, y] = .ok (x.min y)) ∧
    OrdersNumbers orderOfMax ∧ (∀ s m, orderOfMax.lt (finite s m) nan) ∧
    OrdersNumbers orderOfMin ∧ (∀ s m, orderOfMin.lt nan (finite s m)) ∧
    (∀ x y : Binary64, x.max y = orderOfMax.max x y) ∧ (∀ x y : Binary64, x.min y = orderOfMin.min x y) ∧
    LatticeOperation Binary64.max ∧ LatticeOperation Binary64.min ∧ (∀ x y : Binary64, x.min y = -((-x).max (-y))) := by
  refine ⟨⟨_, rfl, rfl, fun _ _ => rfl⟩, ⟨_, rfl, rfl, fun _ _ => rfl⟩, ordersNumbers _, fun s m => ?_,
    ordersNumbers _, fun s m => ?_, max_eq, min_eq, ?_, ?_, min_eq_neg_max⟩
  · rw [@lt_iff_not_ge _ orderOfMax]
    show ¬ nan.place 3 ≤ (finite s m).place 3
    simp [place_le_iff, level]
  · rw [@lt_iff_not_ge _ orderOfMin]
    show ¬ (finite s m).place 1 ≤ nan.place 1
    simp [place_le_iff, level]
  · rw [show Binary64.max = orderOfMax.max from funext fun x => funext (max_eq x)]
    exact @latticeOperation_max _ orderOfMax
  · rw [show Binary64.min = orderOfMin.min from funext fun x => funext (min_eq x)]
    exact @latticeOperation_min _ orderOfMin

end Binary64
end Calculator
