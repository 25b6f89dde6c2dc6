import Calculator.Text.LetterCase

/-!
# Letters in either case

`lower_toLower`: the lower case of a text does not change when its ASCII letters are lowered before.
-/

namespace Calculator.Text

/-! ## Characters -/

theorem toLower_of_not_capital {c : Char} (h : ¬ (65 ≤ c.toNat ∧ c.toNat ≤ 90)) : c.toLower = c := by
  unfold Char.toLower
  apply dif_neg
  simp only [UInt32.le_iff_toNat_le, ge_iff_le]
  exact h

theorem eq_on_toLower {α : Type} {f : Char → α}
    (h : ∀ n < 26, f (Char.ofNat (65 + n)).toLower = f (Char.ofNat (65 + n))) (c : Char) : f c.toLower = f c := by
  by_cases hc : 65 ≤ c.toNat ∧ c.toNat ≤ 90
  · have := h (c.toNat - 65) (by omega)
    rwa [Nat.add_sub_cancel' hc.1, Char.ofNat_toNat] at this
  · rw [toLower_of_not_capital hc]

theorem toLower_toLower (c : Char) : c.toLower.toLower = c.toLower := eq_on_toLower (by decide) c

theorem isCased_toLower (c : Char) : isCased c.toLower = isCased c := eq_on_toLower (by decide +kernel) c

theorem isCaseIgnorable_toLower (c : Char) : isCaseIgnorable c.toLower = isCaseIgnorable c :=
  eq_on_toLower (by decide +kernel) c

/-! ## Texts -/

theorem takeWhile_toLower {p : Char → Bool} (hp : ∀ c, p c.toLower = p c) (cs : List Char) :
    (cs.map Char.toLower).takeWhile p = (cs.takeWhile p).map Char.toLower := by
  have hsame : p ∘ Char.toLower = p := funext hp
  rw [List.takeWhile_map, hsame]

theorem dropWhile_toLower {p : Char → Bool} (hp : ∀ c, p c.toLower = p c) (cs : List Char) :
    (cs.map Char.toLower).dropWhile p = (cs.dropWhile p).map Char.toLower := by
  have hsame : p ∘ Char.toLower = p := funext hp
  rw [List.dropWhile_map, hsame]

theorem toList_toLower (s : String) : s.toLower.toList = s.toList.map Char.toLower := String.toList_map

theorem toLower_ofList (cs : List Char) : (String.ofList cs).toLower = String.ofList (cs.map Char.toLower) := by
  rw [← String.toList_inj, toList_toLower, String.toList_ofList, String.toList_ofList]

theorem toLower_append (s t : String) : (s ++ t).toLower = s.toLower ++ t.toLower := by
  rw [← String.toList_inj]
  simp only [toList_toLower, String.toList_append, List.map_append]

theorem toLower_idem (s : String) : s.toLower.toLower = s.toLower := by
  rw [← String.toList_inj]
  simp only [toList_toLower, List.map_map]
  apply List.map_congr_left
  exact fun c _ => toLower_toLower c

theorem length_toLower (s : String) : s.toLower.length = s.length := by
  rw [← String.length_toList, toList_toLower, List.length_map, String.length_toList]

theorem meetsCased_toLower (side : List Char) : meetsCased (side.map Char.toLower) = meetsCased side := by
  unfold meetsCased
  rw [dropWhile_toLower isCaseIgnorable_toLower]
  cases side.dropWhile isCaseIgnorable with
  | nil => rfl
  | cons c _ => exact isCased_toLower c

theorem lowerAt_toLower (before : List Char) (c : Char) (after : List Char) :
    lowerAt (before.map Char.toLower) c.toLower (after.map Char.toLower) = lowerAt before c after := by
  have hascii : ∀ c : Char, decide (c.toLower.toNat < 128) = decide (c.toNat < 128) := by
    apply eq_on_toLower (f := fun c => decide (c.toNat < 128))
    decide +kernel
  have hc := hascii c
  simp only [decide_eq_decide] at hc
  by_cases h : c.toNat < 128
  · rw [lowerAt, lowerAt, if_pos h, if_pos (hc.mpr h), toLower_toLower]
  · have hself : c.toLower = c := toLower_of_not_capital (by omega)
    rw [hself, lowerAt, lowerAt, if_neg h, if_neg h]
    simp only [lowerSigma, meetsCased_toLower]

theorem lowerFrom_toLower (lowered : List Char) : ∀ (before cs : List Char),
    lowerFrom (before.map Char.toLower) lowered (cs.map Char.toLower) = lowerFrom before lowered cs := by
  intro before cs
  induction cs generalizing before lowered with
  | nil => rfl
  | cons c after ih =>
    rw [List.map_cons, lowerFrom, lowerFrom, lowerAt_toLower]
    exact ih _ (c :: before)

theorem lower_toLower (s : String) : lower s.toLower = lower s := by
  unfold lower
  rw [toList_toLower]
  exact congrArg String.ofList (lowerFrom_toLower [] [] s.toList)

end Calculator.Text
