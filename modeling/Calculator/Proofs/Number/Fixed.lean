import Calculator.CommandLine.Run
import Calculator.Proofs.Number.Dump
import Calculator.Proofs.Number.Order
import Mathlib.Algebra.Order.Group.Abs
import Mathlib.Algebra.Ring.Parity
import Mathlib.Tactic.FieldSimp
import Mathlib.Tactic.Linarith

/-!
# Results with a given number of places

`formatResult_places`: a finite number is written with its sign and the digits of the nearest multiple of the last
place, the even one of two. So greater numbers are not written as lesser ones.
-/

namespace Calculator

/-! ## Nearest integers -/

/-- No integer is nearer to `q`, and if another is as near then `n` is even. -/
structure IsNearest (n : ℕ) (q : ℚ) : Prop where
  nearest : ∀ m : ℤ, |q - n| ≤ |q - m|
  even : ∀ m : ℤ, m ≠ n → |q - m| = |q - n| → Even n

theorem half_le_abs_sub {n : ℕ} {m : ℤ} {q : ℚ} (h : |q - n| ≤ 1 / 2) (hm : m ≠ n) : 1 / 2 ≤ |q - m| := by
  have hone : (1 : ℚ) ≤ |(m : ℚ) - n| := by
    exact_mod_cast Int.one_le_abs (sub_ne_zero.mpr hm)
  have htriangle := abs_sub_le (m : ℚ) q n
  rw [abs_sub_comm (m : ℚ) q] at htriangle
  linarith

theorem isNearest_iff {n : ℕ} {q : ℚ} : IsNearest n q ↔ |q - n| ≤ 1 / 2 ∧ (|q - n| = 1 / 2 → Even n) := by
  constructor
  · intro h
    have hbelow : |q - n| ≤ |q - n + 1| := by
      have := h.nearest (n - 1)
      push_cast at this
      rwa [← sub_add] at this
    have habove : |q - n| ≤ |q - n - 1| := by
      have := h.nearest (n + 1)
      push_cast at this
      rwa [← sub_sub] at this
    rw [← sq_le_sq] at hbelow habove
    refine ⟨abs_le.mpr ⟨by linarith, by linarith⟩, fun hhalf => ?_⟩
    rcases (abs_eq (by norm_num)).mp hhalf with hd | hd
    · refine h.even (n + 1) (by omega) ?_
      push_cast
      rw [← sub_sub, hd]
      norm_num [abs]
    · refine h.even (n - 1) (by omega) ?_
      push_cast
      rw [← sub_add, hd]
      norm_num [abs]
  · rintro ⟨hhalf, heven⟩
    constructor
    · intro m
      by_cases hm : m = n
      · rw [hm, Int.cast_natCast]
      · exact hhalf.trans (half_le_abs_sub hhalf hm)
    · intro m hm heq
      exact heven (le_antisymm hhalf (heq ▸ half_le_abs_sub hhalf hm))

theorem isNearest_natCast (n : ℕ) : IsNearest n n := by
  rw [isNearest_iff, sub_self, abs_zero]
  norm_num

theorem isNearest_below {k : ℕ} {d : ℚ} (hnonneg : 0 ≤ d) (hd : d < 1 / 2) : IsNearest k (k + d) := by
  rw [isNearest_iff, add_sub_cancel_left, abs_of_nonneg hnonneg]
  exact ⟨hd.le, fun heq => absurd heq hd.ne⟩

theorem isNearest_above {k : ℕ} {d : ℚ} (hd : 1 / 2 < d) (hlt : d < 1) : IsNearest (k + 1) (k + d) := by
  have hdist : |(k : ℚ) + d - (k + 1 : ℕ)| = 1 - d := by
    rw [Nat.cast_add, Nat.cast_one, add_sub_add_left_eq_sub, abs_sub_comm, abs_of_pos (sub_pos.mpr hlt)]
  rw [isNearest_iff, hdist]
  exact ⟨by linarith, fun heq => absurd heq (by linarith)⟩

theorem isNearest_tie (k : ℕ) : IsNearest (k + k % 2) (k + 1 / 2) := by
  have hparity : Even (k + k % 2) := by
    rw [Nat.even_iff]
    omega
  rw [isNearest_iff]
  refine ⟨?_, fun _ => hparity⟩
  rcases Nat.mod_two_eq_zero_or_one k with h0 | h1
  · rw [h0, Nat.add_zero, add_sub_cancel_left]
    norm_num [abs]
  · rw [h1, Nat.cast_add, Nat.cast_one, add_sub_add_left_eq_sub]
    norm_num [abs]

theorem isNearest_roundDiv (num : ℕ) {den : ℕ} (h : 0 < den) : IsNearest (roundDiv num den) (num / den) := by
  have hden : (0 : ℚ) < den := Nat.cast_pos.mpr h
  obtain ⟨k, r, hk, hr, hsplit⟩ : ∃ k r, num / den = k ∧ num % den = r ∧ (num : ℚ) / den = k + r / den := by
    refine ⟨_, _, rfl, rfl, ?_⟩
    rw [add_div' _ _ _ hden.ne']
    congr 1
    exact_mod_cast (Nat.div_add_mod' num den).symm
  have hlt : (r : ℚ) / den < 1 := (div_lt_one hden).mpr (by exact_mod_cast hr ▸ Nat.mod_lt num h)
  have hnonneg : (0 : ℚ) ≤ r / den := by positivity
  have hbelow : 2 * r < den ↔ (r : ℚ) / den < 1 / 2 := by
    rw [div_lt_iff₀ hden, ← Nat.cast_lt (α := ℚ)]
    push_cast
    constructor <;> intro <;> linarith
  have habove : den < 2 * r ↔ 1 / 2 < (r : ℚ) / den := by
    rw [lt_div_iff₀ hden, ← Nat.cast_lt (α := ℚ)]
    push_cast
    constructor <;> intro <;> linarith
  rw [hsplit, roundDiv]
  simp only [hk, hr, hbelow, habove]
  generalize (r : ℚ) / den = d at hlt hnonneg
  split
  · rename_i hd
    exact isNearest_below hnonneg hd
  split
  · rename_i hd
    exact isNearest_above hd hlt
  · rename_i hle hge
    obtain rfl : d = 1 / 2 := le_antisymm (not_lt.mp hge) (not_lt.mp hle)
    exact isNearest_tie k

theorem IsNearest.mono {m n : ℕ} {p q : ℚ} (hm : IsNearest m p) (hn : IsNearest n q) (h : p ≤ q) : m ≤ n := by
  rw [isNearest_iff, abs_le] at hm hn
  obtain ⟨⟨hlow, -⟩, hevenm⟩ := hm
  obtain ⟨⟨-, hhigh⟩, hevenn⟩ := hn
  by_contra hlt
  have hle : (n : ℚ) + 1 ≤ m := by exact_mod_cast not_le.mp hlt
  -- both are ties between the same two neighbours
  have hp : p - m = -(1 / 2) := by linarith
  have hq : q - n = 1 / 2 := by linarith
  have hsucc : m = n + 1 := by
    have : (m : ℚ) = n + 1 := by linarith
    exact_mod_cast this
  have hevenm := hevenm (by rw [hp]; norm_num [abs])
  have hevenn := hevenn (by rw [hq]; norm_num [abs])
  rw [hsucc, Nat.even_add_one] at hevenm
  exact hevenm hevenn

/-! ## Digits -/

theorem head?_toDigits : ∀ {n : ℕ}, n ≠ 0 → (Nat.toDigits 10 n).head? ≠ some '0'
  | n, h => by
    rw [Nat.toDigits_eq_if (by decide)]
    split
    · rename_i hlt
      have := Decimal.digitChar_ne_zero hlt h
      simpa using this
    · have := head?_toDigits (n := n / 10) (by omega)
      rwa [List.head?_append_of_ne_nil _ Nat.toDigits_ne_nil]

def filled (places n : ℕ) : List Char :=
  List.replicate (places + 1 - (Nat.toDigits 10 n).length) '0' ++ Nat.toDigits 10 n

section
variable (places n : ℕ)

theorem length_filled : places + 1 ≤ (filled places n).length := by
  rw [filled, List.length_append, List.length_replicate]
  omega

theorem isDigit_filled : ∀ c ∈ filled places n, c.isDigit = true := by
  intro c hc
  rcases List.mem_append.mp hc with hc | hc
  · exact Numeral.isDigit_zeros _ c hc
  · exact Numeral.isDigit_toDigits n c hc

theorem ofDigitChars_filled : Nat.ofDigitChars 10 (filled places n) 0 = n := by
  rw [filled, Nat.ofDigitChars_append, Nat.ofDigitChars_replicate_zero]
  simp

theorem leading_filled (h : ((filled places n).take ((filled places n).length - places)).head? = some '0') :
    (filled places n).take ((filled places n).length - places) = ['0'] := by
  by_cases hlength : places + 1 ≤ (Nat.toDigits 10 n).length
  · have hfilled : filled places n = Nat.toDigits 10 n := by
      rw [filled, Nat.sub_eq_zero_of_le hlength, List.replicate_zero, List.nil_append]
    rw [hfilled, List.head?_take, if_neg (by omega)] at h
    by_cases hn : n = 0
    · subst hn
      rw [Nat.toDigits_zero, List.length_singleton] at hlength
      obtain rfl : places = 0 := by omega
      rfl
    · exact absurd h (head?_toDigits hn)
  · have hone : (filled places n).length - places = 1 := by
      rw [filled, List.length_append, List.length_replicate]
      omega
    rw [hone] at h ⊢
    rw [List.head?_take, if_neg Nat.one_ne_zero] at h
    rw [List.take_one, h]
    rfl

end

namespace Numeral

/-- Digits without superfluous leading zeros and, if `places` are asked for, so many digits behind a point. -/
structure IsFixed (places : ℕ) (numeral : Numeral) : Prop where
  isSpelling : numeral.isSpelling = true
  whole : numeral.whole ≠ []
  leading : numeral.whole.head? = some '0' → numeral.whole = ['0']
  fraction : numeral.fraction.map List.length = if places = 0 then none else some places

theorem isSpelling_of_digits {numeral : Numeral} (hne : numeral.whole ≠ [])
    (hwhole : ∀ c ∈ numeral.whole, c.isDigit = true)
    (hfraction : ∀ ds, numeral.fraction = some ds → ∀ c ∈ ds, c.isDigit = true) : numeral.isSpelling = true := by
  obtain ⟨whole, fraction⟩ := numeral
  cases fraction with
  | none => simpa [isSpelling, hne] using hwhole
  | some ds =>
    have hds := hfraction ds rfl
    simp only [isSpelling, Bool.and_eq_true, List.all_eq_true]
    exact ⟨hwhole, hds, by simp at hne; simp [hne]⟩

def digitsValue (numeral : Numeral) : ℕ := Nat.ofDigitChars 10 (numeral.whole ++ numeral.fraction.getD []) 0

end Numeral

def placed (places exact n : ℕ) : Numeral :=
  let digits := filled exact n
  let cut := digits.length - exact
  ⟨digits.take cut, if places = 0 then none else some (digits.drop cut ++ List.replicate (places - exact) '0')⟩

section
variable {places exact : ℕ} (h : exact ≤ places) (n : ℕ)
include h

theorem isFixed_placed : (placed places exact n).IsFixed places := by
  have hlength := length_filled exact n
  have hdigits := isDigit_filled exact n
  have hwhole : (placed places exact n).whole ≠ [] := by
    rw [← List.length_pos_iff, placed, List.length_take]
    omega
  have hwholeDigits : ∀ c ∈ (placed places exact n).whole, c.isDigit = true := fun c hc =>
    hdigits c (List.mem_of_mem_take hc)
  refine ⟨?_, hwhole, leading_filled exact n, ?_⟩
  · have hfraction : ∀ ds, (placed places exact n).fraction = some ds → ∀ c ∈ ds, c.isDigit = true := by
      intro ds hds c hc
      simp only [placed] at hds
      split at hds
      · cases hds
      · cases hds
        rcases List.mem_append.mp hc with hc | hc
        · exact hdigits c (List.mem_of_mem_drop hc)
        · exact Numeral.isDigit_zeros _ c hc
    exact Numeral.isSpelling_of_digits hwhole hwholeDigits hfraction
  · unfold placed
    split
    · rfl
    · simp
      omega

theorem digitsValue_placed : (placed places exact n).digitsValue = n * 10 ^ (places - exact) := by
  have hlength := length_filled exact n
  unfold Numeral.digitsValue placed
  by_cases hplaces : places = 0
  · obtain rfl : exact = 0 := by omega
    simp [hplaces, ofDigitChars_filled]
  · simp only [if_neg hplaces, Option.getD_some]
    rw [← List.append_assoc, List.take_append_drop, Nat.ofDigitChars_append, ofDigitChars_filled,
      Nat.ofDigitChars_replicate_zero, mul_comm]

end

namespace Binary64

/-- Either all the places are rounded to or, of those, as many as the exact value needs. -/
theorem exists_placed (places ordinal : ℕ) : ∃ exact ≤ places, (exact = places ∨ unitsPerOne = 2 ^ exact) ∧
    fixedNumeral places ordinal = placed places exact (roundDiv (units ordinal * 10 ^ exact) unitsPerOne) := by
  refine ⟨Nat.min places 1074, Nat.min_le_left places 1074, ?_, rfl⟩
  rcases Nat.le_total places 1074 with hle | hle
  · exact .inl (Nat.min_eq_left hle)
  · have hmin : Nat.min places 1074 = 1074 := Nat.min_eq_right hle
    rw [hmin]
    exact .inr (by rw [unitsPerOne])

theorem isFixed_fixedNumeral (places ordinal : ℕ) : (fixedNumeral places ordinal).IsFixed places := by
  obtain ⟨exact, hle, -, h⟩ := exists_placed places ordinal
  rw [h]
  exact isFixed_placed hle _

theorem isNearest_fixedNumeral (places ordinal : ℕ) :
    IsNearest (fixedNumeral places ordinal).digitsValue (units ordinal / unitsPerOne * 10 ^ places) := by
  obtain ⟨exact, hle, hexact, h⟩ := exists_placed places ordinal
  rw [h, digitsValue_placed hle]
  rcases hexact with rfl | hp
  · rw [Nat.sub_self, Nat.pow_zero, Nat.mul_one]
    have hnearest := isNearest_roundDiv (units ordinal * 10 ^ exact) unitsPerOne_pos
    push_cast at hnearest
    rwa [mul_div_right_comm] at hnearest
  · -- nothing is rounded away
    have hpow : 10 ^ exact = 5 ^ exact * 2 ^ exact := by rw [← Nat.mul_pow]
    have hvalue : (units ordinal / (2 ^ exact : ℕ) * 10 ^ places : ℚ) =
        (units ordinal * 5 ^ exact * 10 ^ (places - exact) : ℕ) := by
      have hplaces : (10 : ℚ) ^ places = 5 ^ exact * 2 ^ exact * 10 ^ (places - exact) := by
        rw [← mul_pow, ← pow_mul_pow_sub _ hle]
        norm_num
      rw [hplaces]
      push_cast
      field_simp
    rw [hp, hpow, ← Nat.mul_assoc, roundDiv_mul_self _ (Nat.two_pow_pos exact), hvalue]
    exact isNearest_natCast _

end Binary64

/-! ## Numbers with a sign -/

open Binary64

def Denotes (text : String) (q : ℚ) : Prop := ∃ negative numeral, Numeral.isSpelling numeral = true ∧
  text = signText negative ++ numeral.text ∧
  q = (signed negative numeral.digitsValue : ℚ) / 10 ^ (numeral.fraction.getD []).length

theorem Denotes.unique {text : String} {p q : ℚ} (hp : Denotes text p) (hq : Denotes text q) : p = q := by
  obtain ⟨s, m, hm, rfl, rfl⟩ := hp
  obtain ⟨t, n, hn, h, rfl⟩ := hq
  have hchars : (signText s).toList ++ m.chars = (signText t).toList ++ n.chars := by
    simpa [Numeral.text] using congrArg String.toList h
  -- digits do not begin with the sign
  have hminus : ∀ {numeral : Numeral}, numeral.isSpelling = true → '-' ∉ numeral.chars := fun hspelling hmem =>
    absurd (Numeral.mem_chars hspelling hmem) (by decide)
  have hsame : s = t ∧ m.chars = n.chars := by
    cases s <;> cases t <;> simp only [signText, Bool.false_eq_true, ↓reduceIte, String.toList_empty,
      List.nil_append] at hchars
    · exact ⟨rfl, hchars⟩
    · exact absurd (hchars ▸ List.mem_append_left _ (by simp)) (hminus hm)
    · exact absurd (hchars ▸ List.mem_append_left _ (by simp)) (hminus hn)
    · exact ⟨rfl, List.append_cancel_left hchars⟩
  obtain ⟨rfl, hsame⟩ := hsame
  have hnumeral := Numeral.ofChars?_chars hm
  rw [hsame, Numeral.ofChars?_chars hn] at hnumeral
  cases hnumeral
  rfl

theorem denotes_fixed (negative : Bool) (places ordinal : ℕ) (q : ℚ) :
    Denotes (signText negative ++ (fixedNumeral places ordinal).text) q ↔
      q = (signed negative (fixedNumeral places ordinal).digitsValue : ℚ) / 10 ^ places := by
  have hfixed := isFixed_fixedNumeral places ordinal
  have hlength : ((fixedNumeral places ordinal).fraction.getD []).length = places := by
    have := hfixed.fraction
    cases hf : (fixedNumeral places ordinal).fraction <;> rw [hf] at this <;> split at this <;> simp_all
  have hdenotes : Denotes (signText negative ++ (fixedNumeral places ordinal).text)
      ((signed negative (fixedNumeral places ordinal).digitsValue : ℚ) / 10 ^ places) :=
    ⟨negative, _, hfixed.isSpelling, rfl, by rw [hlength]⟩
  exact ⟨fun h => h.unique hdenotes, fun h => h ▸ hdenotes⟩

theorem abs_signed_div (s : Bool) (n d : ℕ) : |(signed s n : ℚ) / d| = n / d := by
  rw [abs_div, Nat.abs_cast]
  cases s <;> simp [signed]

theorem sign_of_toRat? {x : Binary64} {q : ℚ} (h : x.toRat? = some q) :
    x.isNegative = true ∧ q ≤ 0 ∨ x.isNegative = false ∧ 0 ≤ q := by
  obtain ⟨s, ordinal, rfl, rfl⟩ := eq_finite_of_toRat? h
  have hnonneg : (0 : ℚ) ≤ units ordinal / unitsPerOne := by positivity
  rw [signed_div]
  cases s with
  | false => exact .inr ⟨rfl, hnonneg⟩
  | true => exact .inl ⟨rfl, neg_nonpos.mpr hnonneg⟩

theorem signed_mono {s t : Bool} {p q : ℚ} {m n : ℕ} (hs : s = true ∧ p ≤ 0 ∨ s = false ∧ 0 ≤ p)
    (ht : t = true ∧ q ≤ 0 ∨ t = false ∧ 0 ≤ q) (hm : IsNearest m |p|) (hn : IsNearest n |q|) (h : p ≤ q) :
    signed s m ≤ signed t n := by
  rcases hs with ⟨rfl, hp⟩ | ⟨rfl, hp⟩ <;> rcases ht with ⟨rfl, hq⟩ | ⟨rfl, hq⟩
  · rw [abs_of_nonpos hp] at hm
    rw [abs_of_nonpos hq] at hn
    have := hn.mono hm (neg_le_neg h)
    simp only [signed, ↓reduceIte]
    omega
  · simp only [signed, ↓reduceIte, Bool.false_eq_true]
    omega
  · -- both are zero
    obtain rfl : p = 0 := le_antisymm (h.trans hq) hp
    obtain rfl : q = 0 := le_antisymm hq h
    rw [abs_zero] at hm hn
    have hm := hm.mono (isNearest_natCast 0) (by simp)
    have hn := hn.mono (isNearest_natCast 0) (by simp)
    simp only [signed, ↓reduceIte, Bool.false_eq_true]
    omega
  · rw [abs_of_nonneg hp] at hm
    rw [abs_of_nonneg hq] at hn
    have := hm.mono hn h
    simp only [signed, ↓reduceIte, Bool.false_eq_true]
    omega

/-- The text has `places` digits behind the point, and they are those of the nearest number of so many digits. -/
structure IsRounded (places : ℕ) (negative : Bool) (q : ℚ) (text : String) (numeral : Numeral) : Prop where
  text_eq : text = signText negative ++ numeral.text
  isFixed : numeral.IsFixed places
  denotes : ∀ c, Denotes text c ↔ c = (signed negative numeral.digitsValue : ℚ) / 10 ^ places
  isNearest : IsNearest numeral.digitsValue (|q| * 10 ^ places)

theorem formatResult_finite {places : ℕ} (h : places ≤ maxPlaces) {x : Binary64} {q : ℚ} (hx : x.toRat? = some q) :
    ∃ text numeral, formatResult (some places) x = .ok text ∧ IsRounded places x.isNegative q text numeral := by
  obtain ⟨s, ordinal, rfl, rfl⟩ := eq_finite_of_toRat? hx
  have hmax : places ≤ maxRequestedPlaces := h.trans (by decide)
  have hformat : formatResult (some places) (finite s ordinal) =
      .ok (signText s ++ (fixedNumeral places ordinal).text) := by
    rw [formatResult, if_neg (Nat.not_lt.mpr hmax), if_neg (Nat.not_lt.mpr h)]
    rfl
  refine ⟨_, fixedNumeral places ordinal, hformat, rfl, isFixed_fixedNumeral places ordinal,
    denotes_fixed s places ordinal, ?_⟩
  rw [abs_signed_div]
  exact isNearest_fixedNumeral places ordinal

theorem formatResult_places :
    (∀ places ≤ maxPlaces, ∀ x q, x.toRat? = some q →
      ∃ text numeral, formatResult (some places) x = .ok text ∧ IsRounded places x.isNegative q text numeral) ∧
    ∀ places ≤ maxPlaces, ∀ x y p q, x.toRat? = some p → y.toRat? = some q → p ≤ q →
      ∃ text text' a b, formatResult (some places) x = .ok text ∧ formatResult (some places) y = .ok text' ∧
        (∀ c, Denotes text c ↔ c = a) ∧ (∀ c, Denotes text' c ↔ c = b) ∧ a ≤ b := by
  refine ⟨fun places h x q hx => formatResult_finite h hx, fun places h x y p q hx hy hle => ?_⟩
  obtain ⟨text, m, hxtext, hm⟩ := formatResult_finite h hx
  obtain ⟨text', n, hytext, hn⟩ := formatResult_finite h hy
  refine ⟨text, text', _, _, hxtext, hytext, hm.denotes, hn.denotes, ?_⟩
  have hpos : (0 : ℚ) < 10 ^ places := by positivity
  have hscale : ∀ r : ℚ, |r| * 10 ^ places = |r * 10 ^ places| := fun r => by rw [abs_mul, abs_of_pos hpos]
  have hsign : ∀ {z : Binary64} {r : ℚ}, z.toRat? = some r →
      z.isNegative = true ∧ r * 10 ^ places ≤ 0 ∨ z.isNegative = false ∧ 0 ≤ r * 10 ^ places := by
    intro z r hz
    rcases sign_of_toRat? hz with ⟨hnegative, hr⟩ | ⟨hnegative, hr⟩
    · exact .inl ⟨hnegative, mul_nonpos_of_nonpos_of_nonneg hr hpos.le⟩
    · exact .inr ⟨hnegative, mul_nonneg hr hpos.le⟩
  have hmono := signed_mono (hsign hx) (hsign hy) (hscale p ▸ hm.isNearest) (hscale q ▸ hn.isNearest)
    (mul_le_mul_of_nonneg_right hle hpos.le)
  exact div_le_div_of_nonneg_right (Int.cast_le.mpr hmono) hpos.le

/-- A quarter is a tie and goes to the even digit, and rounding up reaches a further digit before the point. -/
theorem formatResult_places_tie_and_carry : ∃ x y : Binary64, x.toRat? = some (-1 / 4) ∧ y.toRat? = some (319 / 32) ∧
    (∃ numeral, formatResult (some 1) x = .ok "-0.2" ∧ IsRounded 1 true (-1 / 4) "-0.2" numeral) ∧
    (∃ numeral, formatResult (some 1) y = .ok "10.0" ∧ IsRounded 1 false (319 / 32) "10.0" numeral) ∧
    ∃ a b, (∀ c, Denotes "-0.2" c ↔ c = a) ∧ (∀ c, Denotes "10.0" c ↔ c = b) ∧ a ≤ b := by
  let m : Fin finiteCount := ⟨1021 * 2 ^ 52, by decide⟩
  let n : Fin finiteCount := ⟨1026 * 2 ^ 52 + 63 * 2 ^ 44, by decide⟩
  have hm : units m * 4 = 1 * unitsPerOne := by decide +kernel
  have hn : units n * 32 = 319 * unitsPerOne := by decide +kernel
  have hpos : (unitsPerOne : ℚ) ≠ 0 := Nat.cast_ne_zero.mpr (Nat.ne_of_gt unitsPerOne_pos)
  have hx : (finite true m).toRat? = some (-1 / 4) := by
    have hcast : (units m : ℚ) * 4 = 1 * unitsPerOne := by exact_mod_cast hm
    rw [toRat?, if_pos rfl, Option.some.injEq]
    field_simp
    linarith
  have hy : (finite false n).toRat? = some (319 / 32) := by
    have hcast : (units n : ℚ) * 32 = 319 * unitsPerOne := by exact_mod_cast hn
    rw [toRat?, if_neg Bool.false_ne_true, Option.some.injEq]
    field_simp
    linarith
  have htext : formatResult (some 1) (finite true m) = .ok "-0.2" := by decide +kernel
  have htext' : formatResult (some 1) (finite false n) = .ok "10.0" := by decide +kernel
  have hplaces : 1 ≤ maxPlaces := by decide
  obtain ⟨text, numeral, hformat, hrounded⟩ := formatResult_places.1 1 hplaces _ _ hx
  obtain ⟨text', numeral', hformat', hrounded'⟩ := formatResult_places.1 1 hplaces _ _ hy
  obtain ⟨u, v, a, b, hu, hv, ha, hb, hle⟩ := formatResult_places.2 1 hplaces _ _ _ _ hx hy (by norm_num)
  cases htext.symm.trans hformat
  cases htext'.symm.trans hformat'
  cases htext.symm.trans hu
  cases htext'.symm.trans hv
  exact ⟨_, _, hx, hy, ⟨numeral, htext, hrounded⟩, ⟨numeral', htext', hrounded'⟩, a, b, ha, hb, hle⟩

example : formatResult (some 2) (finite true 0) = .ok "-0.00" := by decide +kernel

end Calculator
