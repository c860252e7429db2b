import Passbook.Money
import Passbook.Proofs.Decimal.Sum

/-!
# Sums and values

Decimals of one value have sums of one value, whatever their scales are. A sum
at a larger scale has more digits, and loses the more of them; but those are
zeros, or all that is lost is lost by the same rounding. And decimals of one
value are shown as one amount of money.

* `roundHalfEven_congr`: the nearest whole number depends on the quotient only;
* `add?_congr`, `sub?_congr`: sums and differences depend on values only;
* `negative_of_add?`, `negative_of_sub?`: when they have no minus sign;
* `Money.text_congr`: amounts of one value are shown alike, if they have no minus
  sign.
-/

namespace Passbook

/-! ## Quotients -/

theorem roundHalfEven_mul_mul (n d : ℕ) {c : ℕ} (hc : 0 < c) :
    roundHalfEven (n * c) (d * c) = roundHalfEven n d := by
  have hmod : 2 * (n * c % (d * c)) = 2 * (n % d) * c := by
    rw [Nat.mul_mod_mul_right, mul_assoc]
  rw [roundHalfEven, roundHalfEven, hmod, Nat.mul_div_mul_right _ _ hc]
  simp only [Nat.mul_lt_mul_right hc]

/-- The nearest whole number depends on the quotient only. -/
theorem roundHalfEven_congr {n d m e : ℕ} (hd : 0 < d) (he : 0 < e) (h : n * e = m * d) :
    roundHalfEven n d = roundHalfEven m e := by
  rw [← roundHalfEven_mul_mul n d he, h, mul_comm d e, roundHalfEven_mul_mul m e hd]

namespace Decimal

variable {n s j k : ℕ}

/-! ## Lost digits -/

/-- A number that does not fit loses the zeros that are put behind it, and then
    what it would have lost without them. -/
theorem excess?_mul_pow (hn : mantissaBound ≤ n) (s j : ℕ) :
    excess? (n * 10 ^ j) (s + j) = (excess? n s).map (· + j) := by
  -- As long as no more is lost than the zeros, the number does not fit.
  have hzeros : ∀ i ≤ j, mantissaBound ≤ roundHalfEven (n * 10 ^ j) (10 ^ i) := by
    intro i hi
    rw [← Nat.sub_add_cancel hi, pow_add, ← mul_assoc, roundHalfEven_mul_self _ (by positivity)]
    exact hn.trans (Nat.le_mul_of_pos_right n (by positivity))
  have hrest : ∀ i, roundHalfEven (n * 10 ^ j) (10 ^ (i + j)) = roundHalfEven n (10 ^ i) := by
    intro i
    rw [pow_add, roundHalfEven_mul_mul n _ (by positivity)]
  cases hk : excess? n s with
  | none =>
    rw [excess?_eq_none] at hk
    rw [Option.map_none, excess?_eq_none]
    intro i hi
    rcases le_or_gt i j with hij | hij
    · exact hzeros i hij
    · rw [← Nat.sub_add_cancel hij.le, hrest]
      exact hk _ (by omega)
  | some k =>
    rw [excess?_eq_some] at hk
    obtain ⟨hks, hlt, hlarge⟩ := hk
    rw [Option.map_some, excess?_eq_some, hrest]
    refine ⟨by omega, hlt, fun i hi => ?_⟩
    rcases le_or_gt i j with hij | hij
    · exact hzeros i hij
    · rw [← Nat.sub_add_cancel hij.le, hrest]
      exact hlarge _ (by omega)

theorem natAbs_mul_ten_pow (u : ℤ) (j : ℕ) : (u * 10 ^ j).natAbs = u.natAbs * 10 ^ j := by
  rw [Int.natAbs_mul, Int.natAbs_pow]
  rfl

theorem leftUnits_mul_pow (u : ℤ) (j k : ℕ) :
    leftUnits (u * 10 ^ j) (k + j) = leftUnits u k * 10 ^ j := by
  have hneg : u * 10 ^ j < 0 ↔ u < 0 :=
    lt_iff_lt_of_le_iff_le (mul_nonneg_iff_of_pos_right (by positivity))
  rw [leftUnits, leftUnits, natAbs_mul_ten_pow, pow_add 10 k j,
    roundHalfEven_mul_mul _ _ (by positivity)]
  simp only [hneg]
  split <;> ring

/-- The value that `u` units of `10 ^ -s` are rounded to. -/
def fitted? (u : ℤ) (s : ℕ) : Option ℚ :=
  (excess? u.natAbs s).map fun k => leftUnits u k / 10 ^ s

/-- A number that fits keeps its value if zeros are put behind it. -/
theorem fitted?_of_lt {u : ℤ} (hu : u.natAbs < mantissaBound) (s j : ℕ) :
    fitted? (u * 10 ^ j) (s + j) = some ((u : ℚ) / 10 ^ s) := by
  have hle : (u * 10 ^ j).natAbs ≤ (mantissaBound - 1) * 10 ^ (s + j) := by
    rw [natAbs_mul_ten_pow, pow_add, mul_comm (10 ^ s), ← mul_assoc]
    refine (Nat.mul_le_mul_right _ (Nat.le_sub_one_of_lt hu)).trans ?_
    exact Nat.le_mul_of_pos_right _ (by positivity)
  obtain ⟨k, hk⟩ := exists_excess? hle
  have hunits : (u * 10 ^ j).natAbs * 10 ^ s = u.natAbs * 10 ^ (s + j) := by
    rw [natAbs_mul_ten_pow, pow_add]
    ring
  rw [fitted?, hk, Option.map_some, leftUnits_eq (roundHalfEven_mul_of_excess? hk hu hunits)]
  push_cast
  rw [pow_add, mul_div_mul_right _ _ (by positivity)]

theorem fitted?_mul_pow (u : ℤ) (s j : ℕ) : fitted? (u * 10 ^ j) (s + j) = fitted? u s := by
  rcases le_or_gt mantissaBound u.natAbs with hu | hu
  · rw [fitted?, fitted?, natAbs_mul_ten_pow, excess?_mul_pow hu, Option.map_map]
    congr 1
    funext k
    rw [Function.comp_apply, leftUnits_mul_pow, pow_add]
    push_cast
    rw [mul_div_mul_right _ _ (by positivity)]
  · have hzero := fitted?_of_lt hu s 0
    rw [pow_zero, mul_one, add_zero] at hzero
    rw [fitted?_of_lt hu, hzero]

/-- Numbers of one value are rounded to one value. -/
theorem fitted?_congr {u v : ℤ} {s t : ℕ} (h : (u : ℚ) / 10 ^ s = v / 10 ^ t) :
    fitted? u s = fitted? v t := by
  wlog hst : s ≤ t generalizing u v s t
  · exact (this h.symm (Nat.le_of_not_le hst)).symm
  obtain ⟨j, rfl⟩ := Nat.exists_eq_add_of_le hst
  have hv : v = u * 10 ^ j := by
    rw [div_eq_div_iff (by positivity) (by positivity), pow_add, mul_comm ((10 : ℚ) ^ s),
      ← mul_assoc] at h
    exact_mod_cast (mul_right_cancel₀ (by positivity) h).symm
  rw [hv, fitted?_mul_pow]

theorem map_toRat_fit? (u : ℤ) (hs : s ≤ maxScale) :
    (fit? (decide (u < 0)) u.natAbs s hs).map toRat = fitted? u s := by
  cases h : fit? (decide (u < 0)) u.natAbs s hs with
  | none =>
    rw [fitted?, fit?_eq_none.1 h, Option.map_none, Option.map_none]
  | some d =>
    obtain ⟨k, hk, -, hd⟩ := toRat_of_fit? h
    rw [fitted?, hk, Option.map_some, Option.map_some, hd]

/-! ## Sums -/

variable {a b x y d : Decimal}

theorem map_toRat_add? (ha : ¬a.IsZero) (hb : ¬b.IsZero) : (a.add? b).map toRat =
    fitted? (a.units (max a.scale b.scale) + b.units (max a.scale b.scale))
      (max a.scale b.scale) := by
  rw [add?, if_neg ha, if_neg hb]
  exact map_toRat_fit? _ _

/-- The value of a sum depends on the values only. -/
theorem add?_congr (ha : a.toRat = x.toRat) (hb : b.toRat = y.toRat) :
    (a.add? b).map toRat = (x.add? y).map toRat := by
  have hax : a.IsZero ↔ x.IsZero := by rw [isZero_iff_toRat, isZero_iff_toRat, ha]
  have hby : b.IsZero ↔ y.IsZero := by rw [isZero_iff_toRat, isZero_iff_toRat, hb]
  by_cases hza : a.IsZero
  · rw [add?, add?, if_pos hza, if_pos (hax.1 hza), Option.map_some, Option.map_some, hb]
  · by_cases hzb : b.IsZero
    · rw [add?, add?, if_neg hza, if_neg (mt hax.2 hza), if_pos hzb, if_pos (hby.1 hzb),
        Option.map_some, Option.map_some, ha]
    · rw [map_toRat_add? hza hzb, map_toRat_add? (mt hax.2 hza) (mt hby.2 hzb)]
      refine fitted?_congr ?_
      rw [units_add_units, units_add_units, mul_div_cancel_right₀ _ (by positivity),
        mul_div_cancel_right₀ _ (by positivity), ha, hb]

/-- The value of a difference depends on the values only. -/
theorem sub?_congr (ha : a.toRat = x.toRat) (hb : b.toRat = y.toRat) :
    (a.sub? b).map toRat = (x.sub? y).map toRat :=
  add?_congr ha (by rw [toRat_neg, toRat_neg, hb])

/-- A sum that is not negative has no minus sign, if the second summand is not
    zero: then a zero with a minus sign is never returned as it is. -/
theorem negative_of_add? (h : a.add? b = some d) (hsum : 0 ≤ a.toRat + b.toRat)
    (hb : ¬b.IsZero) : d.negative = false := by
  rw [add?, if_neg hb] at h
  split at h
  · cases h
    rw [isZero_iff_toRat.1 ‹a.IsZero›, zero_add] at hsum
    have hpos : 0 < b.toRat := lt_of_le_of_ne hsum (Ne.symm (mt isZero_iff_toRat.2 hb))
    exact (isPositive_iff.1 (isPositive_iff_toRat.2 hpos)).1
  · obtain ⟨-, -, hneg, -⟩ := fit?_eq_some h
    have hunits : (0 : ℚ) ≤ (a.units (max a.scale b.scale) + b.units (max a.scale b.scale) : ℤ) := by
      rw [units_add_units]
      positivity
    rw [hneg, decide_eq_false_iff_not, not_lt]
    exact_mod_cast hunits

theorem negative_of_sub? (h : a.sub? b = some d) (hle : b.toRat ≤ a.toRat) (hb : ¬b.IsZero) :
    d.negative = false := by
  refine negative_of_add? h (by rw [toRat_neg]; linarith) ?_
  rwa [isZero_iff_toRat, toRat_neg, neg_eq_zero, ← isZero_iff_toRat]

/-! ## Money -/

/-- Units are the nearest whole number of the value in units. -/
theorem roundedUnits_eq (d : Decimal) (p : ℕ) :
    d.roundedUnits p = roundHalfEven (d.mantissa * 10 ^ p) (10 ^ d.scale) := by
  rw [roundedUnits]
  split
  · next hle =>
    rw [← Nat.sub_add_cancel hle, pow_add, ← mul_assoc, roundHalfEven_mul_self _ (by positivity),
      Nat.add_sub_cancel]
  · next hlt =>
    refine roundHalfEven_congr (by positivity) (by positivity) ?_
    rw [mul_assoc, ← pow_add, Nat.add_sub_cancel' (Nat.le_of_not_le hlt)]

theorem mantissa_mul_pow (h : a.SameValue b) :
    a.mantissa * 10 ^ b.scale = b.mantissa * 10 ^ a.scale := by
  rw [sameValue_iff] at h
  have hsize : (a.mantissa : ℚ) * 10 ^ b.scale = b.mantissa * 10 ^ a.scale := by
    rw [← abs_toRat_mul_pow, ← abs_toRat_mul_pow, h]
    ring
  exact_mod_cast hsize

end Decimal

/-- Amounts of one value are shown in the same number of cents. -/
theorem Money.cents_congr {a b : Decimal} (h : a.SameValue b) : cents a = cents b := by
  rw [cents, cents, Decimal.roundedUnits_eq, Decimal.roundedUnits_eq]
  refine roundHalfEven_congr (by positivity) (by positivity) ?_
  rw [mul_right_comm, Decimal.mantissa_mul_pow h, mul_right_comm]

/-- Amounts of one value, without minus signs, are shown alike. -/
theorem Money.text_congr {a b : Decimal} (symbol : String) (h : a.SameValue b)
    (ha : a.negative = false) (hb : b.negative = false) : text symbol a = text symbol b := by
  rw [text, text, chars, chars, showsMinus, showsMinus, ha, hb, cents_congr h, Bool.false_and,
    Bool.false_and]

end Passbook
