/-!
# Double-precision numbers

The values of the 64-bit binary format with all NaNs identified. A finite magnitude is given by its
ordinal, its place among the finite magnitudes counted upward from zero: the format lays exponent and
fraction out so that the ordinal is the low 63 bits of the encoding, and larger ordinals are larger
numbers. `units` is the exact size of a magnitude in steps of the smallest one, `2 ^ (-1074)`.
-/

namespace Calculator

-- powers of naturals are the built-in ones even where a monoid offers its own
attribute [instance (high), default_instance (high + 1)] instPowNat

/-- The number of finite magnitudes, zero included; as an ordinal it stands for infinity. -/
abbrev finiteCount : Nat := 0x7FF0000000000000

inductive Binary64 where
  | nan
  | infinite (negative : Bool)
  | finite (negative : Bool) (ordinal : Fin finiteCount)
deriving DecidableEq, Inhabited

namespace Binary64

def zero : Binary64 := finite false 0

def one : Binary64 := finite false 0x3FF0000000000000

/-- The magnitude of an ordinal, counted in steps of `2 ^ (-1074)`. -/
def units (ordinal : Nat) : Nat :=
  let exponent := ordinal / 2 ^ 52
  let fraction := ordinal % 2 ^ 52
  if exponent = 0 then fraction else (2 ^ 52 + fraction) * 2 ^ (exponent - 1)

def unitsPerOne : Nat := 2 ^ 1074

def isNaN : Binary64 → Bool
  | nan => true
  | _ => false

def isFinite : Binary64 → Bool
  | finite _ _ => true
  | _ => false

def isInfinite : Binary64 → Bool
  | infinite _ => true
  | _ => false

def isNegative : Binary64 → Bool
  | nan => false
  | infinite negative => negative
  | finite negative _ => negative

def neg : Binary64 → Binary64
  | nan => nan
  | infinite negative => infinite !negative
  | finite negative ordinal => finite (!negative) ordinal

def abs : Binary64 → Binary64
  | nan => nan
  | infinite _ => infinite false
  | finite _ ordinal => finite false ordinal

instance : Neg Binary64 := ⟨neg⟩

def copySign (x y : Binary64) : Binary64 := if y.isNegative then -x.abs else x.abs

/-! ## The 64-bit encoding -/

/-- NaN is written as the quiet one with no payload. -/
def toBits : Binary64 → UInt64
  | nan => 0x7FF8000000000000
  | infinite negative => UInt64.ofNat ((if negative then 2 ^ 63 else 0) + finiteCount)
  | finite negative ordinal => UInt64.ofNat ((if negative then 2 ^ 63 else 0) + ordinal)

def ofBits (bits : UInt64) : Binary64 :=
  let negative := decide (2 ^ 63 ≤ bits.toNat)
  let ordinal := bits.toNat % 2 ^ 63
  if h : ordinal < finiteCount then finite negative ⟨ordinal, h⟩
  else if ordinal = finiteCount then infinite negative
  else nan

theorem ofBits_toBits (x : Binary64) : ofBits x.toBits = x := by
  cases x with
  | nan => decide
  | infinite s => cases s <;> decide
  | finite s o =>
    have ho : o.val < 0x7FF0000000000000 := o.isLt
    have hn : (UInt64.ofNat ((if s then 2 ^ 63 else 0) + o.val)).toNat = (if s then 2 ^ 63 else 0) + o.val := by
      rw [UInt64.toNat_ofNat']
      apply Nat.mod_eq_of_lt
      split <;> omega
    have hm : ((if s then 2 ^ 63 else 0) + o.val) % 2 ^ 63 = o.val := by
      split <;> omega
    have hs : decide (2 ^ 63 ≤ (if s then 2 ^ 63 else 0) + o.val) = s := by
      cases s with
      | false => simp; omega
      | true => simp
    simp only [ofBits, toBits, hn, hm, hs, o.isLt, ↓reduceDIte, Fin.eta]

/-! ## Sign changes -/

@[simp] theorem neg_nan : -(nan : Binary64) = nan := rfl
@[simp] theorem neg_infinite (s : Bool) : -(infinite s) = infinite !s := rfl
@[simp] theorem neg_finite (s : Bool) (o : Fin finiteCount) : -(finite s o) = finite (!s) o := rfl

theorem neg_neg (x : Binary64) : - -x = x := by
  cases x <;> simp

@[simp] theorem isNegative_neg_finite (s : Bool) (o : Fin finiteCount) :
    (-(finite s o)).isNegative = !s := rfl

end Binary64
end Calculator
