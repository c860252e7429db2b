import Mathlib.Data.Rat.Cast.Order
import Mathlib.Tactic.FieldSimp
import Mathlib.Tactic.Linarith
import Mathlib.Tactic.Positivity
import Mathlib.Tactic.Ring
import Passbook.Decimal.Basic

/-!
# Decimals as rational numbers

The order, the equality and the sign of decimals are those of their values, so
that what is computed with mantissas and scales can be reasoned about in the
field of rational numbers.

* `lt_iff_toRat_lt`, `le_iff_toRat_le`, `sameValue_iff`: comparisons across
  scales compare values;
* `units_eq_toRat_mul`: a value in units of `10 ^ -s`;
* `abs_toRat_mul_lt`: in units of its own scale, a decimal is below the bound
  on mantissas;
* `Representable`: the rational numbers that are the value of a decimal.
-/

namespace Passbook.Decimal

variable {a b d : Decimal}

/-- The value is the mantissa with its sign, as many places down as the scale has. -/
theorem toRat_eq (d : Decimal) : d.toRat = d.signed / 10 ^ d.scale := by
  rw [toRat, Nat.cast_pow, Nat.cast_ofNat]

/-- The value in units of its own scale is the mantissa with its sign. -/
theorem toRat_mul_pow (d : Decimal) : d.toRat * 10 ^ d.scale = d.signed := by
  rw [toRat_eq, div_mul_cancel₀ _ (by positivity)]

/-- At a finer scale, the units of a decimal are its value in them. -/
theorem units_eq_toRat_mul {s : ℕ} (hs : d.scale ≤ s) : (d.units s : ℚ) = d.toRat * 10 ^ s := by
  rw [units, Int.cast_mul, ← toRat_mul_pow, mul_assoc]
  push_cast
  rw [← pow_add, Nat.add_sub_cancel' hs]

/-! ## Order -/

/-- Decimals of any two scales are compared by their values. -/
theorem lt_iff_toRat_lt : a < b ↔ a.toRat < b.toRat := by
  rw [toRat_eq, toRat_eq, div_lt_div_iff₀ (by positivity) (by positivity), lt_iff]
  exact_mod_cast Iff.rfl

/-- So they are when they may be equal. -/
theorem le_iff_toRat_le : a ≤ b ↔ a.toRat ≤ b.toRat := by
  rw [toRat_eq, toRat_eq, div_le_div_iff₀ (by positivity) (by positivity), le_iff]
  exact_mod_cast Iff.rfl

/-- The order of decimals is total. -/
theorem not_lt_iff : ¬a < b ↔ b ≤ a := by
  rw [lt_iff_toRat_lt, le_iff_toRat_le, not_lt]

/-- Decimals that differ only in their scales have one value. -/
theorem sameValue_iff : a.SameValue b ↔ a.toRat = b.toRat := by
  rw [toRat_eq, toRat_eq, div_eq_div_iff (by positivity) (by positivity), SameValue]
  exact_mod_cast Iff.rfl

@[simp]
theorem toRat_zero : zero.toRat = 0 := by
  simp [toRat_eq, zero, signed]

/-- A decimal is positive if its value is. -/
theorem isPositive_iff_toRat : d.IsPositive ↔ 0 < d.toRat := by
  rw [IsPositive, lt_iff_toRat_lt, toRat_zero]

/-- A decimal is not negative if its value is not; the sign of a zero does not count. -/
theorem zero_le_iff : zero ≤ d ↔ 0 ≤ d.toRat := by
  rw [le_iff_toRat_le, toRat_zero]

/-- Amounts up to zero are those that no command has. -/
theorem le_zero_iff_not_isPositive : d ≤ zero ↔ ¬d.IsPositive := by
  rw [isPositive_iff_toRat, le_iff_toRat_le, toRat_zero, not_lt]

/-- A decimal is zero if its value is, whatever its sign. -/
theorem isZero_iff_toRat : d.IsZero ↔ d.toRat = 0 := by
  rw [toRat_eq, div_eq_zero_iff, IsZero, signed]
  cases d.negative <;> simp

@[simp]
theorem toRat_neg (d : Decimal) : d.neg.toRat = -d.toRat := by
  rw [toRat_eq, toRat_eq, signed_neg, scale_neg, Int.cast_neg, neg_div]

/-! ## Size -/

theorem abs_signed (d : Decimal) : |d.signed| = d.mantissa := by
  rw [signed]
  cases d.negative <;> simp

/-- Without its sign, a value in units of its own scale is the mantissa. -/
theorem abs_toRat_mul_pow (d : Decimal) : |d.toRat| * 10 ^ d.scale = d.mantissa := by
  rw [← abs_of_pos (show (0 : ℚ) < 10 ^ d.scale by positivity), ← abs_mul, toRat_mul_pow]
  exact_mod_cast abs_signed d

/-- In units of its scale, or coarser ones, a decimal is below the bound. -/
theorem abs_toRat_mul_lt {s : ℕ} (hs : s ≤ d.scale) : |d.toRat| * 10 ^ s < mantissaBound := by
  calc |d.toRat| * 10 ^ s ≤ |d.toRat| * 10 ^ d.scale := by gcongr; norm_num
    _ = d.mantissa := d.abs_toRat_mul_pow
    _ < mantissaBound := by exact_mod_cast d.mantissa_lt

/-- No decimal is above the largest mantissa. -/
theorem abs_toRat_le (d : Decimal) : |d.toRat| ≤ mantissaBound - 1 := by
  have hone : (1 : ℚ) ≤ 10 ^ d.scale := one_le_pow₀ (by norm_num)
  have hm : (d.mantissa : ℚ) + 1 ≤ mantissaBound := by exact_mod_cast d.mantissa_lt
  calc |d.toRat| ≤ |d.toRat| * 10 ^ d.scale := le_mul_of_one_le_right (abs_nonneg _) hone
    _ = d.mantissa := d.abs_toRat_mul_pow
    _ ≤ mantissaBound - 1 := by linarith

/-- No decimal but zero is below the least unit. -/
theorem one_le_abs_toRat_mul_pow (hd : d.toRat ≠ 0) : 1 ≤ |d.toRat| * 10 ^ maxScale := by
  have hmantissa : d.mantissa ≠ 0 := fun hzero => hd (isZero_iff_toRat.1 hzero)
  calc (1 : ℚ) ≤ d.mantissa := by exact_mod_cast Nat.one_le_iff_ne_zero.2 hmantissa
    _ = |d.toRat| * 10 ^ d.scale := d.abs_toRat_mul_pow.symm
    _ ≤ |d.toRat| * 10 ^ maxScale := by
      have := d.scale_le
      gcongr
      norm_num

/-! ## Representable values -/

/-- A rational number that is the value of a decimal. -/
def Representable (x : ℚ) : Prop := ∃ d : Decimal, d.toRat = x

end Passbook.Decimal
