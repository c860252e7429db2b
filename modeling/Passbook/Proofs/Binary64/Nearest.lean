import Mathlib.Algebra.Order.Field.Power
import Mathlib.Data.Rat.Cast.Order
import Mathlib.Tactic.FieldSimp
import Mathlib.Tactic.Linarith
import Mathlib.Tactic.Positivity
import Mathlib.Tactic.Ring
import Mathlib.Tactic.SplitIfs
import Passbook.Binary64
import Passbook.Proofs.Decimal.Rounding

/-!
# The nearest number in 64 bits

Reading a decimal finds the number nearest to it.

* `Canonical`: the mantissas and exponents that numbers have;
* `Covers m q x`: the rational number `x` is nearer to `m * 2 ^ q` than to any
  other number, or halfway to a neighbour and the mantissa is even;
* `nearest_eq_finite_iff`: a decimal is read as the number that covers it.
-/

namespace Passbook

namespace Binary64

variable {num den m n : ℕ} {q e : ℤ} {v x : ℚ} {negative : Bool}

/-! ## The exponent of a number -/

/-- A power with a whole exponent, as a quotient of powers with natural ones. -/
theorem pow_toNat {b : ℚ} (hb : b ≠ 0) (q : ℤ) : b ^ q.toNat = b ^ q * b ^ (-q).toNat := by
  rw [← zpow_natCast, ← zpow_natCast, ← zpow_add₀ hb]
  congr 1
  omega

theorem roundsTo_unitsOf (hden : 0 < den) (q : ℤ) :
    RoundsTo ((num : ℚ) / den / 2 ^ q) (unitsOf num den q) := by
  have hden' : (den : ℚ) ≠ 0 := by exact_mod_cast hden.ne'
  have hratio : (num : ℚ) / den / 2 ^ q =
      ((num * 2 ^ (-q).toNat : ℕ) : ℚ) / (den * 2 ^ q.toNat : ℕ) := by
    push_cast
    rw [pow_toNat two_ne_zero q]
    field_simp
  rw [hratio]
  exact roundsTo_roundHalfEven (by positivity)

theorem two_zpow_pos (q : ℤ) : (0 : ℚ) < 2 ^ q := zpow_pos two_pos q

theorem mantissaLimit_eq : (mantissaLimit : ℚ) = 2 ^ 53 := by norm_num [mantissaLimit]

theorem unitsOf_lt_iff (hden : 0 < den) (q : ℤ) : unitsOf num den q < mantissaLimit ↔
    2 * ((num : ℚ) / den) < (2 * mantissaLimit - 1) * 2 ^ q := by
  rw [(roundsTo_unitsOf hden q).lt_iff (by decide), ← mul_div_assoc,
    div_lt_iff₀ (two_zpow_pos q)]

/-- The least exponent at which `v` is rounded to a mantissa below the limit. -/
structure IsExponent (v : ℚ) (q : ℤ) : Prop where
  least_le : leastExponent ≤ q
  lt : 2 * v < (2 * mantissaLimit - 1) * 2 ^ q
  le : leastExponent < q → (2 * mantissaLimit - 1) * 2 ^ (q - 1) ≤ 2 * v

theorem IsExponent.le_of {r : ℤ} (h : IsExponent v q) (hr : IsExponent v r) : q ≤ r := by
  by_contra hlt
  have hle := (h.le (by have := hr.least_le; omega)).trans_lt hr.lt
  have hpow : (2 : ℚ) ^ r ≤ 2 ^ (q - 1) := zpow_le_zpow_right₀ one_le_two (by omega)
  have hlimit := mantissaLimit_eq
  nlinarith

theorem IsExponent.eq {r : ℤ} (h : IsExponent v q) (hr : IsExponent v r) : q = r :=
  le_antisymm (h.le_of hr) (hr.le_of h)

/-- The difference of the logarithms is the logarithm of the ratio, up to one. -/
theorem ratio_bounds (hnum : 0 < num) (hden : 0 < den) :
    (2 : ℚ) ^ ((num.log2 : ℤ) - den.log2 - 1) < num / den ∧
      (num : ℚ) / den < 2 ^ ((num.log2 : ℤ) - den.log2 + 1) := by
  have hn : (2 : ℚ) ^ (num.log2 : ℤ) ≤ num := by exact_mod_cast Nat.log2_self_le hnum.ne'
  have hn' : (num : ℚ) < 2 ^ (num.log2 + 1 : ℤ) := by exact_mod_cast Nat.lt_log2_self
  have hd : (2 : ℚ) ^ (den.log2 : ℤ) ≤ den := by exact_mod_cast Nat.log2_self_le hden.ne'
  have hd' : (den : ℚ) < 2 ^ (den.log2 + 1 : ℤ) := by exact_mod_cast Nat.lt_log2_self
  have hden' : (0 : ℚ) < den := by exact_mod_cast hden
  constructor
  · rw [lt_div_iff₀ hden']
    calc (2 : ℚ) ^ ((num.log2 : ℤ) - den.log2 - 1) * den
        < 2 ^ ((num.log2 : ℤ) - den.log2 - 1) * 2 ^ (den.log2 + 1 : ℤ) := by gcongr
      _ = 2 ^ (num.log2 : ℤ) := by rw [← zpow_add₀ two_ne_zero]; congr 1; ring
      _ ≤ num := hn
  · rw [div_lt_iff₀ hden']
    calc (num : ℚ) < 2 ^ (num.log2 + 1 : ℤ) := hn'
      _ = 2 ^ ((num.log2 : ℤ) - den.log2 + 1) * 2 ^ (den.log2 : ℤ) := by
        rw [← zpow_add₀ two_ne_zero]; congr 1; ring
      _ ≤ 2 ^ ((num.log2 : ℤ) - den.log2 + 1) * den := by gcongr

theorem isExponent_exponentOf (hnum : 0 < num) (hden : 0 < den) :
    IsExponent (num / den) (exponentOf num den) := by
  obtain ⟨hlow, hhigh⟩ := ratio_bounds hnum hden
  have hlimit := mantissaLimit_eq
  let q := max leastExponent ((num.log2 : ℤ) - den.log2 - 53)
  have hbelow : leastExponent < q →
      (2 * mantissaLimit - 1) * (2 : ℚ) ^ (q - 1) ≤ 2 * ((num : ℚ) / den) := by
    intro hq
    have hq : (num.log2 : ℤ) - den.log2 - 1 = q - 1 + 53 := by omega
    rw [hq, zpow_add₀ two_ne_zero] at hlow
    have := two_zpow_pos (q - 1)
    norm_num at hlow hlimit
    nlinarith
  have habove : 2 * ((num : ℚ) / den) < (2 * mantissaLimit - 1) * 2 ^ (q + 2) := by
    have hle : (2 : ℚ) ^ ((num.log2 : ℤ) - den.log2 + 1) ≤ 2 ^ (q + 2 + 52) :=
      zpow_le_zpow_right₀ one_le_two (by omega)
    rw [zpow_add₀ two_ne_zero (q + 2)] at hle
    have := two_zpow_pos (q + 2)
    norm_num at hle hlimit
    nlinarith
  have hle : leastExponent ≤ q := le_max_left ..
  -- Below the first exponent there is no room, and from the third on there is, so
  -- the least one with room is among the three that are tried.
  rw [exponentOf]
  split_ifs with hq hq'
  · exact ⟨hle, (unitsOf_lt_iff hden q).1 hq, hbelow⟩
  · rw [unitsOf_lt_iff hden, not_lt] at hq
    refine ⟨by omega, (unitsOf_lt_iff hden _).1 hq', fun _ => ?_⟩
    rwa [add_sub_cancel_right]
  · rw [unitsOf_lt_iff hden, not_lt] at hq'
    refine ⟨by omega, habove, fun _ => ?_⟩
    rwa [show q + 2 - 1 = q + 1 by ring]

/-! ## The decimals that are read as a number -/

/-- The mantissas and exponents of numbers: above the least exponent, a mantissa
    is at least half the limit. -/
structure Canonical (m : ℕ) (q : ℤ) : Prop where
  lt : m < mantissaLimit
  least_le : leastExponent ≤ q
  le_largest : q ≤ largestExponent
  full : leastExponent < q → mantissaLimit / 2 ≤ m

/-- Zero has the least exponent. -/
theorem Canonical.eq_leastExponent (h : Canonical 0 q) : q = leastExponent := by
  by_contra hq
  exact absurd (h.full (lt_of_le_of_ne h.least_le (Ne.symm hq))) (by decide)

/-- How far the number below is, in half units: the exponent is less there if the
    mantissa is the least one of its exponent. -/
def gap (m : ℕ) (q : ℤ) : ℕ := if m = mantissaLimit / 2 ∧ leastExponent < q then 1 else 2

/-- The number `m * 2 ^ q` is the nearest to `x`: less than halfway to both
    neighbours, or halfway if `m` is even. -/
def Covers (m : ℕ) (q : ℤ) (x : ℚ) : Prop :=
  if m % 2 = 0 then (4 * m - gap m q) * 2 ^ q ≤ 4 * x ∧ 4 * x ≤ (4 * m + 2) * 2 ^ q
  else (4 * m - gap m q) * 2 ^ q < 4 * x ∧ 4 * x < (4 * m + 2) * 2 ^ q

theorem gap_eq_one_iff : gap m q = 1 ↔ m = mantissaLimit / 2 ∧ leastExponent < q := by
  rw [gap]
  split_ifs with h <;> simp [h]

theorem gap_eq_two (h : gap m q ≠ 1) : gap m q = 2 := by
  rw [Ne, gap_eq_one_iff] at h
  exact if_neg h

/-- A number covers what is rounded to its mantissa, unless the number below is
    nearer. -/
theorem covers_iff : Covers m q x ↔
    RoundsTo (x / 2 ^ q) m ∧ (gap m q = 1 → (4 * m - 1) * 2 ^ q ≤ 4 * x) := by
  have hpos := two_zpow_pos q
  obtain ⟨y, rfl⟩ : ∃ y, x = y * 2 ^ q := ⟨x / 2 ^ q, (div_mul_cancel₀ _ hpos.ne').symm⟩
  rw [mul_div_cancel_right₀ y hpos.ne', Covers, RoundsTo]
  simp only [← mul_assoc, mul_le_mul_iff_left₀ hpos, mul_lt_mul_iff_left₀ hpos]
  by_cases hgap : gap m q = 1
  · have heven : m % 2 = 0 := by rw [(gap_eq_one_iff.1 hgap).1]; rfl
    rw [if_pos heven, if_pos heven, hgap, Nat.cast_one]
    constructor
    · rintro ⟨hlow, hhigh⟩
      exact ⟨⟨by linarith, by linarith⟩, fun _ => hlow⟩
    · rintro ⟨⟨-, hhigh⟩, hlow⟩
      exact ⟨hlow rfl, by linarith⟩
  · rw [and_iff_left (absurd · hgap), gap_eq_two hgap, Nat.cast_ofNat]
    split_ifs
    · constructor <;> rintro ⟨hlow, hhigh⟩ <;> constructor <;> linarith
    · constructor <;> rintro ⟨hlow, hhigh⟩ <;> constructor <;> linarith

/-- The number that covers `v` has the exponent of `v`, and its mantissa is what
    `v` is rounded to. -/
theorem canonical_and_covers_iff : Canonical m q ∧ Covers m q v ↔
    IsExponent v q ∧ q ≤ largestExponent ∧ RoundsTo (v / 2 ^ q) m := by
  have hpos := two_zpow_pos (q - 1)
  have hlimit : (mantissaLimit : ℚ) = 2 * (mantissaLimit / 2 : ℕ) := by
    exact_mod_cast (rfl : mantissaLimit = 2 * (mantissaLimit / 2))
  -- All bounds are compared in half units.
  have hpow : (2 : ℚ) ^ q = 2 * 2 ^ (q - 1) := by
    rw [← zpow_one_add₀ two_ne_zero, add_sub_cancel]
  obtain ⟨y, rfl⟩ : ∃ y, v = y * 2 ^ (q - 1) :=
    ⟨v / 2 ^ (q - 1), (div_mul_cancel₀ _ hpos.ne').symm⟩
  have hquot : y * 2 ^ (q - 1) / 2 ^ q = y / 2 := by
    rw [hpow, mul_div_mul_right _ _ hpos.ne']
  have hlt_iff : 2 * (y * 2 ^ (q - 1)) < (2 * mantissaLimit - 1) * 2 ^ q ↔
      2 * (y / 2) < 2 * mantissaLimit - 1 := by
    rw [← hquot, ← mul_div_assoc, div_lt_iff₀ (two_zpow_pos q)]
  have hle_iff : (2 * mantissaLimit - 1) * 2 ^ (q - 1) ≤ 2 * (y * 2 ^ (q - 1)) ↔
      2 * (mantissaLimit : ℚ) - 1 ≤ 2 * y := by
    rw [← mul_assoc, mul_le_mul_iff_left₀ hpos]
  have hgap_iff : (4 * m - 1) * 2 ^ q ≤ 4 * (y * 2 ^ (q - 1)) ↔ (4 * m - 1 : ℚ) ≤ 2 * y := by
    rw [show 4 * (y * (2 : ℚ) ^ (q - 1)) = 2 * y * 2 ^ q by rw [hpow]; ring,
      mul_le_mul_iff_left₀ (two_zpow_pos q)]
  rw [covers_iff, hgap_iff, hquot]
  constructor
  · rintro ⟨⟨hlt, hleast, hlargest, hfull⟩, hrounds, hgap⟩
    refine ⟨⟨hleast, hlt_iff.2 ((hrounds.lt_iff rfl).1 hlt), fun hq => hle_iff.2 ?_⟩, hlargest,
      hrounds⟩
    rcases (hfull hq).eq_or_lt with heq | hlt
    · -- The least mantissa is where the lower neighbour is nearer.
      have hlow := hgap (gap_eq_one_iff.2 ⟨heq.symm, hq⟩)
      rw [← heq] at hlow
      linarith
    · have hm : ((mantissaLimit / 2 : ℕ) : ℚ) + 1 ≤ m := by exact_mod_cast hlt
      have hlow := hrounds.bounds.1
      linarith
  · rintro ⟨⟨hleast, hlt, hle⟩, hlargest, hrounds⟩
    refine ⟨⟨(hrounds.lt_iff rfl).2 (hlt_iff.1 hlt), hleast, hlargest, fun hq => ?_⟩, hrounds,
      fun hgap => ?_⟩
    · have hlow := hle_iff.1 (hle hq)
      have hhigh := hrounds.bounds.2
      by_contra hm
      have hm : (m : ℚ) + 1 ≤ (mantissaLimit / 2 : ℕ) := by exact_mod_cast not_le.1 hm
      linarith
    · obtain ⟨rfl, hq⟩ := gap_eq_one_iff.1 hgap
      have hlow := hle_iff.1 (hle hq)
      linarith

/-! ## Ratios and decimals -/

theorem ofRatio_eq_finite_iff (hnum : 0 < num) (hden : 0 < den) :
    ofRatio negative num den = finite negative m q ↔
      Canonical m q ∧ Covers m q ((num : ℚ) / den) := by
  have hexp := isExponent_exponentOf hnum hden
  rw [canonical_and_covers_iff, ofRatio]
  constructor
  · intro h
    split_ifs at h with hlargest
    simp only [finite.injEq, true_and] at h
    obtain ⟨rfl, rfl⟩ := h
    exact ⟨hexp, not_lt.1 hlargest, roundsTo_unitsOf hden _⟩
  · rintro ⟨hq, hlargest, hrounds⟩
    obtain rfl := hexp.eq hq
    rw [if_neg (not_lt.2 hlargest), (roundsTo_unitsOf hden _).eq hrounds]

/-- No number covers more than the numbers reach. -/
theorem Canonical.le_of_covers (h : Canonical m q) (hx : Covers m q x) : x ≤ 2 ^ (1024 : ℤ) := by
  have hhigh := (covers_iff.1 hx).1.bounds.2
  have hm : (m : ℚ) + 1 ≤ mantissaLimit := by exact_mod_cast h.lt
  have hpow : (2 : ℚ) ^ q ≤ 2 ^ (971 : ℤ) := zpow_le_zpow_right₀ one_le_two h.le_largest
  have hle : x / 2 ^ q ≤ mantissaLimit := by linarith
  rw [div_le_iff₀ (two_zpow_pos q), mantissaLimit_eq] at hle
  calc x ≤ 2 ^ 53 * 2 ^ q := hle
    _ ≤ 2 ^ 53 * 2 ^ (971 : ℤ) := by gcongr
    _ = 2 ^ (1024 : ℤ) := by rw [← zpow_natCast, ← zpow_add₀ two_ne_zero]; rfl

/-- The only number that covers what is below half of the least one is zero. -/
theorem canonical_and_covers_iff_of_lt (hx₀ : 0 ≤ x) (hx : 2 * x < 2 ^ leastExponent) :
    Canonical m q ∧ Covers m q x ↔ m = 0 ∧ q = leastExponent := by
  have hpos := two_zpow_pos q
  constructor
  · rintro ⟨h, hcovers⟩
    have hlow := (covers_iff.1 hcovers).1.bounds.1
    have hpow : (2 : ℚ) ^ leastExponent ≤ 2 ^ q := zpow_le_zpow_right₀ one_le_two h.least_le
    have hlt : 2 * (x / 2 ^ q) < 1 := by
      rw [← mul_div_assoc, div_lt_one hpos]
      linarith
    have hm : (m : ℚ) < 1 := by linarith
    obtain rfl : m = 0 := by
      have : m < 1 := by exact_mod_cast hm
      omega
    exact ⟨rfl, h.eq_leastExponent⟩
  · rintro ⟨rfl, rfl⟩
    refine ⟨⟨by decide, le_rfl, by decide, fun h => absurd h (lt_irrefl _)⟩, ?_⟩
    have hgap : gap 0 leastExponent = 2 := by decide
    rw [Covers, if_pos rfl, hgap]
    constructor
    · push_cast
      linarith
    · push_cast
      linarith

/-- The number of digits tells the size of a decimal. -/
theorem magnitude_bounds (hn : 0 < n) (e : ℤ) :
    (10 : ℚ) ^ (e + (Nat.toDigits 10 n).length - 1) ≤ n * 10 ^ e ∧
      (n : ℚ) * 10 ^ e < 10 ^ (e + (Nat.toDigits 10 n).length) := by
  have hlength : 0 < (Nat.toDigits 10 n).length := Nat.length_toDigits_pos
  generalize hw : (Nat.toDigits 10 n).length = w at *
  have hhigh : n < 10 ^ w := (Nat.length_toDigits_le_iff (by decide) hlength).1 hw.le
  have hlow : 10 ^ (w - 1) ≤ n := by
    by_contra hlt
    rcases Nat.eq_zero_or_pos (w - 1) with hw' | hw'
    · rw [hw', pow_zero] at hlt
      omega
    · have := (Nat.length_toDigits_le_iff (by decide) hw').2 (not_le.1 hlt)
      omega
  have hpos : (0 : ℚ) < 10 ^ e := zpow_pos (by norm_num) e
  constructor
  · have hlow : (10 : ℚ) ^ (w - 1) ≤ n := by exact_mod_cast hlow
    rw [show e + w - 1 = ((w - 1 : ℕ) : ℤ) + e by omega, zpow_add₀ (by norm_num), zpow_natCast]
    gcongr
  · have hhigh : (n : ℚ) < 10 ^ w := by exact_mod_cast hhigh
    rw [add_comm e, zpow_add₀ (by norm_num), zpow_natCast]
    gcongr

theorem two_pow_le_ten_pow : (2 : ℚ) ^ (1075 : ℤ) ≤ 10 ^ magnitudeLimit :=
  calc (2 : ℚ) ^ (1075 : ℤ) = (2 ^ 43) ^ 25 := by rw [← pow_mul]; rfl
    _ ≤ (10 ^ 16) ^ 25 := by gcongr; norm_num
    _ = 10 ^ magnitudeLimit := by rw [← pow_mul]; rfl

/-- A decimal beyond the limit is larger than all numbers. -/
theorem two_pow_lt_of_magnitude (hn : 0 < n)
    (h : magnitudeLimit < e + (Nat.toDigits 10 n).length) : (2 : ℚ) ^ (1024 : ℤ) < n * 10 ^ e :=
  calc (2 : ℚ) ^ (1024 : ℤ) < 2 ^ (1075 : ℤ) := zpow_lt_zpow_right₀ one_lt_two (by decide)
    _ ≤ 10 ^ magnitudeLimit := two_pow_le_ten_pow
    _ ≤ 10 ^ (e + (Nat.toDigits 10 n).length - 1) := zpow_le_zpow_right₀ (by norm_num) (by omega)
    _ ≤ n * 10 ^ e := (magnitude_bounds hn e).1

theorem mul_zpow_eq_div (n : ℕ) (e : ℤ) :
    (n : ℚ) * 10 ^ e = (n * 10 ^ e.toNat : ℕ) / (10 ^ (-e).toNat : ℕ) := by
  push_cast
  rw [pow_toNat (by norm_num) e]
  field_simp

/-- A decimal is read as the number that covers it. -/
theorem nearest_eq_finite_iff : nearest negative n e = finite negative m q ↔
    Canonical m q ∧ Covers m q (n * 10 ^ e) := by
  have hpos : (0 : ℚ) < 10 ^ e := zpow_pos (by norm_num) e
  rw [nearest]
  split_ifs with hzero hlarge
  · -- Zero, and what is too small for any other number.
    have htiny : 2 * ((n : ℚ) * 10 ^ e) < 2 ^ leastExponent := by
      rcases Nat.eq_zero_or_pos n with rfl | hn
      · simpa using two_zpow_pos leastExponent
      · have hlt := (magnitude_bounds hn e).2
        have hle : (10 : ℚ) ^ (e + (Nat.toDigits 10 n).length) ≤ 10 ^ (-magnitudeLimit) :=
          zpow_le_zpow_right₀ (by norm_num) (hzero.resolve_left hn.ne').le
        have hinv : (10 : ℚ) ^ (-magnitudeLimit) ≤ 2 ^ (-1075 : ℤ) := by
          rw [zpow_neg, zpow_neg]
          exact inv_anti₀ (two_zpow_pos _) two_pow_le_ten_pow
        have htwo : (2 : ℚ) * 2 ^ (-1075 : ℤ) = 2 ^ leastExponent := by
          rw [← zpow_one_add₀ two_ne_zero]
          rfl
        linarith
    rw [canonical_and_covers_iff_of_lt (by positivity) htiny]
    simp [eq_comm]
  · -- What is too large for any number.
    refine iff_of_false nofun fun ⟨h, hcovers⟩ => ?_
    exact (two_pow_lt_of_magnitude (by omega) hlarge).not_ge (h.le_of_covers hcovers)
  · have hn : 0 < n := by omega
    rw [mul_zpow_eq_div]
    exact ofRatio_eq_finite_iff (by positivity) (by positivity)

/-- A decimal is read as a finite number, or it is too large for one. -/
theorem nearest_cases (negative : Bool) (n : ℕ) (e : ℤ) :
    (∃ m q, nearest negative n e = finite negative m q) ∨
      nearest negative n e = infinite negative := by
  rw [nearest, ofRatio]
  split_ifs
  · exact .inl ⟨_, _, rfl⟩
  · exact .inr rfl
  · exact .inr rfl
  · exact .inl ⟨_, _, rfl⟩

/-- A decimal that the largest exponent has room for is read as a finite number. -/
theorem exists_nearest_eq (negative : Bool) (h : (n : ℚ) * 10 ^ e ≤ 2 ^ (1023 : ℤ)) :
    ∃ m q, nearest negative n e = finite negative m q := by
  rw [nearest]
  split_ifs with hzero hlarge
  · exact ⟨_, _, rfl⟩
  · have hbeyond := two_pow_lt_of_magnitude (by omega) hlarge
    have hlt : (2 : ℚ) ^ (1023 : ℤ) < 2 ^ (1024 : ℤ) := zpow_lt_zpow_right₀ one_lt_two (by decide)
    exact absurd h (hlt.trans hbeyond).not_ge
  · have hn : 0 < n := by omega
    have hexp := @isExponent_exponentOf (n * 10 ^ e.toNat) (10 ^ (-e).toNat) (by positivity)
      (by positivity)
    rw [← mul_zpow_eq_div] at hexp
    rw [ofRatio]
    split_ifs with hlargest
    · -- A larger exponent is only taken for larger decimals.
      have hle := hexp.le (lt_trans (by decide) hlargest)
      have hpow : (2 : ℚ) ^ (971 : ℤ) ≤ 2 ^ (exponentOf (n * 10 ^ e.toNat) (10 ^ (-e).toNat) - 1) :=
        zpow_le_zpow_right₀ one_le_two (Int.le_sub_one_of_lt hlargest)
      have hpos := two_zpow_pos 971
      rw [show (1023 : ℤ) = 52 + 971 by rfl, zpow_add₀ two_ne_zero] at h
      rw [mantissaLimit_eq] at hle
      generalize (2 : ℚ) ^ (971 : ℤ) = unit at h hpow hpos
      norm_num at h hle
      linarith
    · exact ⟨_, _, rfl⟩

/-- Decimals of one value are read as the same number, up to their signs. -/
theorem nearest_eq_finite_of {a b : Bool} {k : ℕ} {p : ℤ} (h : (n : ℚ) * 10 ^ e = k * 10 ^ p)
    (hn : nearest a n e = finite a m q) : nearest b k p = finite b m q := by
  rw [nearest_eq_finite_iff, h] at hn
  rwa [nearest_eq_finite_iff]

/-- What a decimal is read as depends on its value only. -/
theorem nearest_congr {k : ℕ} {p : ℤ} (h : (n : ℚ) * 10 ^ e = k * 10 ^ p) :
    nearest negative n e = nearest negative k p := by
  rcases nearest_cases negative n e with ⟨m, q, hn⟩ | hn
  · rw [hn, nearest_eq_finite_of h hn]
  · rcases nearest_cases negative k p with ⟨m, q, hk⟩ | hk
    · rw [nearest_eq_finite_of h.symm hk] at hn
      cases hn
    · rw [hn, hk]

end Binary64

end Passbook
