import Calculator.Evaluation.Environment

/-!
# Nothing is refused

Where a function has no guard of its own, its arguments lie in the domain of the machine's function. So quotients,
powers and all standard functions have a result for every double, and a power that the machine refuses is told apart by
what it refuses.

Main statement: `Builtin.isTotal_standard`.
-/

namespace Calculator

/-- A function of doubles that is never refused. -/
def NeverRefused (f : Binary64 → Except MathError Binary64) : Prop := ∀ x, ∃ y, f x = .ok y

namespace Machine
open Binary64

theorem onDomain_inside {domain : Binary64 → Bool} (f : Float → Float) {x : Binary64}
    (h : x.isNaN = true ∨ domain x = true) : onDomain domain f x = .ok (lift₁ f x) := by
  rw [onDomain, if_pos (by simpa using h)]

theorem atan_total : NeverRefused atan := fun _ => ⟨_, onDomain_inside _ (.inr rfl)⟩

theorem whole_total (rounding : Int → Int → Int) {x : Binary64} (h : x.isFinite = true) :
    ∃ i, whole rounding x = .ok i := by
  cases x with
  | finite negative ordinal => exact ⟨_, rfl⟩
  | _ => cases h

theorem div_total (x : Binary64) {y : Binary64} (h : y.isZero = false) : ∃ z, div x y = .ok z := by
  rw [div, h]
  exact ⟨_, rfl⟩

theorem pow_cases (x y : Binary64) :
    (∃ z, pow x y = .ok z) ∨ pow x y = .error .domain ∨ pow x y = .error .range := by
  unfold pow
  dsimp only
  split
  · exact .inl ⟨_, rfl⟩
  · split
    · exact .inr (.inl rfl)
    · exact .inr (.inr rfl)

end Machine

namespace Binary64

/-! ## Guards and domains -/

theorem isFinite_of_not {x : Binary64} (hi : x.isInfinite = false) (hn : x.isNaN = false) : x.isFinite = true := by
  cases x with
  | finite negative ordinal => rfl
  | nan => cases hn
  | infinite negative => cases hi

theorem exists_rank {x : Binary64} (h : x.isNaN = false) : ∃ r, x.rank? = some r := by
  cases x with
  | nan => cases h
  | _ => exact ⟨_, rfl⟩

theorem rank?_zero : zero.rank? = some 0 := rfl

theorem zero_le_of_not_lt {x : Binary64} (h : x.lt zero = false) : x.isNaN = true ∨ zero.le x = true := by
  cases hn : x.isNaN with
  | true => exact .inl rfl
  | false =>
    obtain ⟨r, hr⟩ := exists_rank hn
    simp only [lt, le, hr, rank?_zero, decide_eq_false_iff_not, decide_eq_true_eq] at h ⊢
    omega

theorem zero_lt_of_guards {x : Binary64} (hlt : x.lt zero = false) (hzero : x.isZero = false) :
    x.isNaN = true ∨ zero.lt x = true := by
  cases hn : x.isNaN with
  | true => exact .inl rfl
  | false =>
    obtain ⟨r, hr⟩ := exists_rank hn
    simp only [lt, isZero, hr, rank?_zero, decide_eq_false_iff_not, decide_eq_true_eq, beq_eq_false_iff_ne, ne_eq,
      Option.some.injEq] at hlt hzero ⊢
    omega

/-! ## Total functions -/

theorem sqrt_total : NeverRefused sqrt := by
  intro x
  unfold sqrt
  split
  · exact ⟨_, rfl⟩
  · rename_i h
    exact ⟨_, Machine.onDomain_inside _ (zero_le_of_not_lt (by simpa using h))⟩

theorem ln_total : NeverRefused ln := by
  intro x
  unfold ln
  split
  · exact ⟨_, rfl⟩
  · rename_i h
    split
    · exact ⟨_, rfl⟩
    · rename_i hzero
      simp only [Bool.or_eq_true, not_or, Bool.not_eq_true] at h hzero
      exact ⟨_, Machine.onDomain_inside _ (zero_lt_of_guards h.2 hzero)⟩

theorem rounded_total (rounding : Int → Int → Int) : NeverRefused (rounded (Machine.whole rounding)) := by
  intro x
  unfold rounded
  split
  · exact ⟨_, rfl⟩
  · rename_i h
    simp only [Bool.or_eq_true, not_or, Bool.not_eq_true] at h
    obtain ⟨i, hi⟩ := Machine.whole_total rounding (isFinite_of_not h.1 h.2)
    rw [hi]
    exact ⟨_, rfl⟩

theorem periodic_total (f : Float → Float) : NeverRefused (periodic (Machine.onDomain isFinite f)) := by
  intro x
  unfold periodic
  split
  · exact ⟨_, rfl⟩
  · rename_i h
    refine ⟨_, Machine.onDomain_inside _ ?_⟩
    cases x with
    | infinite negative => exact absurd rfl h
    | nan => exact .inl rfl
    | finite negative ordinal => exact .inr rfl

theorem onUnit_total (f : Float → Float) : NeverRefused (onUnit (Machine.onDomain isUnit f)) := by
  intro x
  unfold onUnit
  split
  · exact ⟨_, rfl⟩
  · rename_i h
    exact ⟨_, Machine.onDomain_inside _ (.inr (by simpa using h))⟩

theorem div_total (x y : Binary64) : ∃ z, x.div y = .ok z := by
  unfold div
  split
  · split <;> exact ⟨_, rfl⟩
  · rename_i h
    exact Machine.div_total x (by simpa using h)

theorem log_total (x base : Binary64) : ∃ y, x.log base = .ok y := by
  obtain ⟨numerator, hx⟩ := ln_total x
  obtain ⟨denominator, hbase⟩ := ln_total base
  rw [log, hx, hbase]
  exact div_total numerator denominator

theorem isOddInteger_total (y : Binary64) : ∃ odd, y.isOddInteger = .ok odd := by
  unfold isOddInteger
  split
  · exact ⟨_, rfl⟩
  · rename_i h
    simp only [Bool.or_eq_true, not_or, Bool.not_eq_true] at h
    have hfinite := isFinite_of_not h.1 h.2
    obtain ⟨below, hbelow⟩ := Machine.whole_total Int.fdiv hfinite
    obtain ⟨whole, hwhole⟩ := Machine.whole_total Int.tdiv hfinite
    rw [Machine.floor, hbelow, Machine.truncate, hwhole]
    cases hi : y.isInteger below with
    | true => exact ⟨whole % 2 == 1, by simp [bind, Except.bind, hi, pure, Except.pure]⟩
    | false => exact ⟨false, by simp [bind, Except.bind, hi, pure, Except.pure]⟩

/-- Both ways in which the machine refuses a power have a result. -/
theorem pow_total (x y : Binary64) : ∃ z, x.pow y = .ok z := by
  obtain ⟨odd, hodd⟩ := isOddInteger_total y
  rw [pow]
  rcases Machine.pow_cases x y with ⟨z, h⟩ | h | h
  · rw [h]
    exact ⟨z, rfl⟩
  · rw [h, hodd]
    dsimp only
    split
    · cases odd <;> exact ⟨_, rfl⟩
    · exact ⟨_, rfl⟩
  · rw [h, hodd]
    dsimp only
    split
    · cases odd <;> exact ⟨_, rfl⟩
    · exact ⟨_, rfl⟩

end Binary64

/-! ## Functions of expressions -/

/-- A call with as many arguments as the function takes is never refused. -/
def Builtin.IsTotal (b : Builtin) : Prop :=
  ∀ xs : List Binary64, (xs.length : Int) = b.arity → ∃ y, b.apply xs = .ok y

def FunctionTable.IsTotal (t : FunctionTable) : Prop := ∀ b ∈ t.builtins, b.IsTotal

namespace Builtin

theorem isTotal_unary (name : String) {f : Binary64 → Except MathError Binary64} (h : NeverRefused f) :
    (unary name f).IsTotal := by
  intro xs hlength
  match xs, hlength with
  | [x], _ => exact h x

theorem isTotal_binary (name : String) {f : Binary64 → Binary64 → Except MathError Binary64}
    (h : ∀ x y, ∃ z, f x y = .ok z) : (binary name f).IsTotal := by
  intro xs hlength
  match xs, hlength with
  | [x, y], _ => exact h x y

theorem isTotal_standard : FunctionTable.standard.IsTotal := by
  open Binary64 in
  simp only [FunctionTable.IsTotal, FunctionTable.standard, standard, List.forall_mem_cons]
  refine ⟨isTotal_unary _ sqrt_total, isTotal_unary _ (rounded_total _), isTotal_unary _ (rounded_total _),
    isTotal_unary _ fun x => ⟨_, rfl⟩, isTotal_binary _ log_total, isTotal_unary _ ln_total,
    isTotal_unary _ (periodic_total _), isTotal_unary _ (periodic_total _), isTotal_unary _ (periodic_total _),
    isTotal_unary _ (onUnit_total _), isTotal_unary _ (onUnit_total _), isTotal_unary _ Machine.atan_total,
    isTotal_binary _ fun x y => ⟨_, rfl⟩, isTotal_binary _ fun x y => ⟨_, rfl⟩, nofun⟩

end Builtin
end Calculator
