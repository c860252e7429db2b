import Passbook.Proofs.Binary64.Numeral

/-!
# Decimals of fifteen digits

A mantissa has room for more than fifteen digits, so decimals of at most fifteen
digits lie farther apart than numbers. Such a decimal is the only one on its grid
that is read as its number, and then it is the shortest decimal of the number.

* `Canonical.two_zpow_lt_ten_zpow`: the unit of a number is smaller than that of
  the decimals that are read as the number, if one of them has fifteen digits;
* `isShortest_of_lt`: so that one is the shortest;
* `survives_of_lt`: its value survives.
-/

namespace Passbook.Binary64

variable {m n j : ℕ} {q e r : ℤ} {x y : ℚ}

/-- Decimals that are read as the same number are no farther apart than its unit. -/
theorem Covers.abs_sub_le (hx : Covers m q x) (hy : Covers m q y) : |x - y| ≤ 2 ^ q := by
  have hlow := hx.ge
  have hlow' := hy.ge
  rw [abs_le]
  constructor <;> linarith [hx.le, hy.le]

/-- From the least number with a full mantissa on, all mantissas are full. -/
theorem Canonical.le_mantissa (h : Canonical m q) (hx : Covers m q x)
    (hnormal : 2 ^ (-1022 : ℤ) ≤ x) : mantissaLimit / 2 ≤ m := by
  rcases h.least_le.eq_or_lt with rfl | hq
  · have hhigh := hx.le
    have hunit : (2 : ℚ) ^ (-1022 : ℤ) = 2 ^ 52 * 2 ^ leastExponent := by
      rw [← zpow_natCast, ← zpow_add₀ two_ne_zero]
      rfl
    have hpos := two_zpow_pos leastExponent
    rw [hunit] at hnormal
    have hle : 4 * (2 : ℚ) ^ 52 ≤ 4 * m + 2 := by
      refine le_of_mul_le_mul_right ?_ hpos
      linarith
    have hle : 4 * 2 ^ 52 ≤ 4 * m + 2 := by exact_mod_cast hle
    rw [mantissaLimit]
    omega
  · exact h.full hq

/-- The unit of a number is smaller than that of a decimal with fifteen digits that
    is read as the number. -/
theorem Canonical.two_zpow_lt_ten_zpow (h : Canonical m q) (hc : Covers m q (n * 10 ^ e))
    (hn : n < 10 ^ 15) (hnormal : 2 ^ (-1022 : ℤ) ≤ (n : ℚ) * 10 ^ e) :
    (2 : ℚ) ^ q < 10 ^ e := by
  have hm : (2 : ℚ) ^ 52 ≤ m := by exact_mod_cast h.le_mantissa hc hnormal
  have hn : (n : ℚ) + 1 ≤ 10 ^ 15 := by exact_mod_cast hn
  have htwo := two_zpow_pos q
  have hten := ten_zpow_pos e
  -- Otherwise less than `10 ^ 15` units of the number would reach its mantissa, which
  -- is at least `2 ^ 52`.
  by_contra hle
  have hfew : (n : ℚ) * 10 ^ e ≤ (10 ^ 15 - 1) * 2 ^ q :=
    mul_le_mul (by linarith) (not_lt.1 hle) hten.le (by norm_num)
  have hmany : (2 : ℚ) ^ 52 * 2 ^ q ≤ m * 2 ^ q := mul_le_mul_of_nonneg_right hm htwo.le
  have hlow := hc.ge
  norm_num at hfew hmany
  linarith

/-- A decimal that is read as a number whose unit is smaller than that of the decimal
    is the only such decimal, on its grid and on coarser ones. -/
theorem eq_of_covers (hn : ¬10 ∣ n) (hunit : (2 : ℚ) ^ q < 10 ^ e) (hle : e ≤ r)
    (hc : Covers m q (n * 10 ^ e)) (hc' : Covers m q (j * 10 ^ r)) : n = j ∧ e = r := by
  obtain ⟨t, rfl⟩ : ∃ t : ℕ, r = e + t := ⟨(r - e).toNat, by omega⟩
  have hten := ten_zpow_pos e
  have hgrid : (j : ℚ) * 10 ^ (e + t) = (j * 10 ^ t : ℕ) * 10 ^ e := by
    rw [zpow_add₀ (by norm_num), zpow_natCast]
    push_cast
    ring
  -- Both are multiples of `10 ^ e`, and they are less than that apart.
  have habs := hc.abs_sub_le hc'
  rw [hgrid, ← sub_mul, abs_mul, abs_of_pos hten] at habs
  have hlt : |(n : ℚ) - (j * 10 ^ t : ℕ)| < 1 := by
    refine lt_of_mul_lt_mul_right ?_ hten.le
    rw [one_mul]
    exact habs.trans_lt hunit
  have hlt : |(n : ℤ) - (j * 10 ^ t : ℕ)| < 1 := by exact_mod_cast hlt
  have heq : n = j * 10 ^ t := by
    have := Int.abs_lt_one_iff.1 hlt
    omega
  exact eq_of_mul_zpow_eq hn hle (by rw [hgrid, ← heq])

/-- A decimal of at most fifteen digits is the shortest decimal of its number, if the
    number is neither too large nor too small for a full mantissa. -/
theorem isShortest_of_lt (hn : ¬10 ∣ n) (hlt : n < 10 ^ 15)
    (hnormal : 2 ^ (-1022 : ℤ) ≤ (n : ℚ) * 10 ^ e) (hlarge : (n : ℚ) * 10 ^ e ≤ 2 ^ (1023 : ℤ)) :
    ∃ m q, IsShortest m q n e := by
  obtain ⟨m, q, hnearest⟩ := exists_nearest_eq false hlarge
  obtain ⟨hcanonical, hcovers⟩ := nearest_eq_finite_iff.1 hnearest
  have hunit := hcanonical.two_zpow_lt_ten_zpow hcovers hlt hnormal
  have honly : ∀ (j : ℕ) (r : ℤ), e ≤ r → nearest false j r = finite false m q → n = j ∧ e = r :=
    fun j r hle h => eq_of_covers hn hunit hle hcovers ((hcanonical.nearest_eq_iff j r).1 h)
  refine ⟨m, q, hnearest, fun j r h => ?_, fun j h => ?_⟩
  · by_contra hfiner
    have := (honly j r (by omega) h).2
    omega
  · obtain ⟨rfl, -⟩ := honly j e le_rfl h
    exact ⟨le_rfl, fun _ => le_rfl⟩

/-- Fifteen digits, of which some stand after a point, survive. -/
theorem survives_of_lt {k t : ℕ} (hk : k < 10 ^ 15) (ht : t ≤ maxScale)
    (hx : |x| = k * 10 ^ (-(t : ℤ))) : Survives x := by
  intro n e hn habs
  have hvalue : (n : ℚ) * 10 ^ e = k * 10 ^ (-(t : ℤ)) := habs.symm.trans hx
  have hn₀ : (1 : ℚ) ≤ n := by
    have : n ≠ 0 := by
      rintro rfl
      exact hn (dvd_zero 10)
    exact_mod_cast Nat.one_le_iff_ne_zero.2 this
  -- Without trailing zeros, there are no more digits than before.
  have hle : -(t : ℤ) ≤ e := by
    by_contra hlt
    have := (eq_of_mul_zpow_eq hn (by omega) hvalue).2
    omega
  obtain ⟨z, rfl⟩ : ∃ z : ℕ, e = -(t : ℤ) + z := ⟨(e + t).toNat, by omega⟩
  have hnk : n ≤ k := by
    rw [zpow_add₀ (by norm_num), zpow_natCast, mul_left_comm, mul_comm (k : ℚ)] at hvalue
    have heq : n * 10 ^ z = k := by exact_mod_cast mul_left_cancel₀ (ten_zpow_pos _).ne' hvalue
    exact heq ▸ Nat.le_mul_of_pos_right n (by positivity)
  have hpow : (10 : ℚ) ^ (-(t : ℤ)) ≤ 1 := zpow_le_one_of_nonpos₀ (by norm_num) (by omega)
  have hk' : (k : ℚ) ≤ 10 ^ 15 := by exact_mod_cast hk.le
  refine isShortest_of_lt hn (hnk.trans_lt hk) ?_ ?_
  · calc (2 : ℚ) ^ (-1022 : ℤ) ≤ 2 ^ (-112 : ℤ) := zpow_le_zpow_right₀ one_le_two (by decide)
      _ ≤ 10 ^ (-28 : ℤ) := by norm_num
      _ ≤ 10 ^ (-(t : ℤ) + z) :=
        zpow_le_zpow_right₀ (by norm_num) (by unfold maxScale at ht; omega)
      _ ≤ n * 10 ^ (-(t : ℤ) + z) := le_mul_of_one_le_left (ten_zpow_pos _).le hn₀
  · calc (n : ℚ) * 10 ^ (-(t : ℤ) + z) = k * 10 ^ (-(t : ℤ)) := hvalue
      _ ≤ 10 ^ 15 * 1 := mul_le_mul hk' hpow (ten_zpow_pos _).le (by norm_num)
      _ ≤ 2 ^ (50 : ℤ) := by norm_num
      _ ≤ 2 ^ (1023 : ℤ) := zpow_le_zpow_right₀ one_le_two (by decide)

end Passbook.Binary64
