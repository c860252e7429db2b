import Passbook.Decimal.Arithmetic
import Passbook.Proofs.Decimal.Rounding
import Passbook.Proofs.Decimal.Value

/-!
# The values of sums and differences

A sum is computed at the larger of two scales and then loses as few digits as
will do. What this does to values is said once, by `Decimal.Rounds s x d`: the
number `x`, a whole number of units of `10 ^ -s`, was made the decimal `d`.

* `add?_rounds`, `sub?_rounds`: sums and differences are roundings;
* `Rounds.exact_or_large`: a result that is not exact is at least
  `2 ^ 96` units of the scale that it was computed at. The half unit that is
  lost could bring it below, if `2 ^ 96` did not leave the remainder `6` when
  it is divided by `10`;
* `Rounds.exact_of_representable`: what can be written exactly, is;
* `add?_eq_none_iff`: a sum is too large from half a unit above the largest
  mantissa on, where it would be rounded up to the bound, which is even;
* `exists_add?`, `exists_sub?`: so a result exists if its size is not above the
  largest mantissa, and always for a difference of two decimals that are not
  negative.
-/

namespace Passbook.Decimal

variable {n s k : ℕ}

/-! ## Lost digits -/

theorem excess?_eq_some : excess? n s = some k ↔
    k ≤ s ∧ roundHalfEven n (10 ^ k) < mantissaBound ∧
      ∀ j < k, mantissaBound ≤ roundHalfEven n (10 ^ j) := by
  simp only [excess?, List.find?_range_eq_some, List.mem_range, Nat.lt_succ_iff, decide_eq_true_eq,
    Bool.not_eq_true', decide_eq_false_iff_not, not_lt]
  tauto

theorem excess?_eq_none : excess? n s = none ↔
    ∀ k ≤ s, mantissaBound ≤ roundHalfEven n (10 ^ k) := by
  simp only [excess?, List.find?_range_eq_none, Nat.lt_succ_iff, Bool.not_eq_true',
    decide_eq_false_iff_not, not_lt]

/-- A number that loses digits is at least the bound after it has lost them. -/
theorem mantissaBound_le_of_excess? (h : excess? n s = some k) (hk : 0 < k) :
    mantissaBound ≤ roundHalfEven n (10 ^ k) * 10 ^ k := by
  obtain ⟨-, -, hlt⟩ := excess?_eq_some.1 h
  have hbound : mantissaBound = 79228162514264337593543950336 := rfl
  have hn := two_mul_le_roundHalfEven (n := n) (d := 10 ^ k) (by positivity)
  obtain ⟨j, rfl⟩ : ∃ j, k = j + 1 := ⟨k - 1, by omega⟩
  rcases Nat.eq_zero_or_pos j with rfl | hj
  · -- One digit: the multiples of ten next to the bound are `4` above it and
    -- `6` below, and a number from the bound on is not rounded down that far.
    have := hlt 0 (by omega)
    rw [pow_zero, roundHalfEven_one] at this
    rw [zero_add, pow_one] at hn ⊢
    omega
  · -- More digits: one digit less would not have been enough, so the number
    -- is about ten times the bound, and more.
    have hprev := Nat.mul_le_mul_right (10 ^ j) (hlt j (by omega))
    have hn' := roundHalfEven_two_mul_le (n := n) (d := 10 ^ j) (by positivity)
    have hten : 10 ^ 1 ≤ 10 ^ j := Nat.pow_le_pow_right (by norm_num) hj
    rw [hbound] at hprev
    rw [pow_succ] at hn ⊢
    omega

/-- Digits are lost exactly if what is written with them can be written without. -/
theorem roundHalfEven_mul_of_excess? (h : excess? n s = some k) {m e : ℕ} (hm : m < mantissaBound)
    (he : n * 10 ^ e = m * 10 ^ s) : roundHalfEven n (10 ^ k) * 10 ^ k = n := by
  obtain ⟨-, -, hlt⟩ := excess?_eq_some.1 h
  rcases le_or_gt s e with hse | hse
  · -- The number is a mantissa as it is, so no digit is lost.
    have hnm : n * 10 ^ (e - s) = m := by
      refine Nat.eq_of_mul_eq_mul_right (show 0 < 10 ^ s by positivity) ?_
      rw [mul_assoc, ← pow_add, Nat.sub_add_cancel hse, he]
    have hle : n ≤ m := hnm ▸ Nat.le_mul_of_pos_right n (by positivity)
    obtain rfl : k = 0 := by
      by_contra hk
      have := hlt 0 (by omega)
      rw [pow_zero, roundHalfEven_one] at this
      omega
    rw [pow_zero, roundHalfEven_one, mul_one]
  · -- The number is `m`, followed by zeros, and there is no need to lose more
    -- than the zeros.
    have hnm : n = m * 10 ^ (s - e) := by
      refine Nat.eq_of_mul_eq_mul_right (show 0 < 10 ^ e by positivity) ?_
      rw [mul_assoc, ← pow_add, Nat.sub_add_cancel hse.le, he]
    have hk : k ≤ s - e := by
      by_contra hk
      have := hlt (s - e) (by omega)
      rw [hnm, roundHalfEven_mul_self m (by positivity)] at this
      omega
    have hnk : n = m * 10 ^ (s - e - k) * 10 ^ k := by
      rw [mul_assoc, ← pow_add, Nat.sub_add_cancel hk, hnm]
    rw [hnk, roundHalfEven_mul_self _ (by positivity)]

/-- A number has no result from half a unit below the bound on: there it would
    be rounded up, for the bound is even. -/
theorem excess?_eq_none_iff :
    excess? n s = none ↔ 2 * (mantissaBound : ℚ) - 1 ≤ 2 * (n / 10 ^ s) := by
  have hround (k : ℕ) : mantissaBound ≤ roundHalfEven n (10 ^ k) ↔
      2 * (mantissaBound : ℚ) - 1 ≤ 2 * (n / 10 ^ k) := by
    have hlt := (roundsTo_roundHalfEven (n := n) (d := 10 ^ k) (by positivity)).lt_iff
      (n := mantissaBound) (by decide)
    rw [← not_lt, hlt, not_lt, Nat.cast_pow, Nat.cast_ofNat]
  rw [excess?_eq_none]
  constructor
  · exact fun h => (hround s).1 (h s le_rfl)
  · -- With fewer digits lost, even more is left.
    intro h k hk
    refine (hround k).2 (h.trans ?_)
    gcongr
    norm_num

theorem exists_excess? (h : n ≤ (mantissaBound - 1) * 10 ^ s) : ∃ k, excess? n s = some k := by
  rw [← Option.ne_none_iff_exists', ne_eq, excess?_eq_none_iff, not_le]
  have hle : (n : ℚ) / 10 ^ s ≤ (mantissaBound - 1 : ℕ) := by
    rw [div_le_iff₀ (by positivity)]
    exact_mod_cast h
  rw [Nat.cast_sub (by decide), Nat.cast_one] at hle
  linarith

/-! ## Roundings -/

/-- The number `x`, in units of `10 ^ -s`, was made the decimal `d`. -/
structure Rounds (s : ℕ) (x : ℚ) (d : Decimal) : Prop where
  scale_le : d.scale ≤ s
  /-- The loss is at most half a unit of the last digit that is left. -/
  near : |d.toRat - x| ≤ 1 / 2 / 10 ^ d.scale
  exact_or_large : d.toRat = x ∨ d.scale < s ∧ mantissaBound ≤ |d.toRat| * 10 ^ s
  exact_of_lt : |x| * 10 ^ s < mantissaBound → d.toRat = x
  exact_of_representable : Representable x → d.toRat = x
  nonneg : 0 ≤ x → 0 ≤ d.toRat
  nonpos : x ≤ 0 → d.toRat ≤ 0

theorem Rounds.of_eq {s : ℕ} {d : Decimal} (hs : d.scale ≤ s) : Rounds s d.toRat d where
  scale_le := hs
  near := by rw [sub_self, abs_zero]; positivity
  exact_or_large := .inl rfl
  exact_of_lt _ := rfl
  exact_of_representable _ := rfl
  nonneg := id
  nonpos := id

theorem fit?_eq_some {negative : Bool} {hs : s ≤ maxScale} {d : Decimal}
    (h : fit? negative n s hs = some d) : ∃ k, excess? n s = some k ∧
      d.negative = negative ∧ d.mantissa = roundHalfEven n (10 ^ k) ∧ d.scale = s - k := by
  rw [fit?] at h
  split at h
  · cases h
  · next k hk =>
    cases h
    exact ⟨k, hk, rfl, rfl, rfl⟩

/-- What is left of `u` units, counted in units, after `k` digits were lost. -/
def leftUnits (u : ℤ) (k : ℕ) : ℤ :=
  let m : ℤ := roundHalfEven u.natAbs (10 ^ k) * 10 ^ k
  if u < 0 then -m else m

theorem natAbs_leftUnits (u : ℤ) (k : ℕ) :
    (leftUnits u k).natAbs = roundHalfEven u.natAbs (10 ^ k) * 10 ^ k := by
  zify
  rw [leftUnits]
  split <;> simp

theorem abs_leftUnits_sub_le (u : ℤ) (k : ℕ) : 2 * |leftUnits u k - u| ≤ 10 ^ k := by
  have hle := two_mul_le_roundHalfEven (n := u.natAbs) (d := 10 ^ k) (by positivity)
  have hge := roundHalfEven_two_mul_le (n := u.natAbs) (d := 10 ^ k) (by positivity)
  zify at hle hge
  rw [leftUnits]
  rcases lt_or_ge u 0 with hu | hu
  · rw [abs_of_neg hu] at hle hge
    rw [if_pos hu, ← abs_two, ← abs_mul, abs_le]
    constructor <;> linarith
  · rw [abs_of_nonneg hu] at hle hge
    rw [if_neg (not_lt.2 hu), ← abs_two, ← abs_mul, abs_le]
    constructor <;> linarith

/-- Nothing is lost if nothing is lost of the size. -/
theorem leftUnits_eq {u : ℤ} {k : ℕ}
    (h : roundHalfEven u.natAbs (10 ^ k) * 10 ^ k = u.natAbs) : leftUnits u k = u := by
  zify at h
  rw [leftUnits, h]
  split
  · rw [abs_of_neg ‹u < 0›, neg_neg]
  · exact abs_of_nonneg (not_lt.1 ‹¬u < 0›)

theorem leftUnits_nonneg {u : ℤ} (hu : 0 ≤ u) (k : ℕ) : 0 ≤ leftUnits u k := by
  rw [leftUnits, if_neg (not_lt.2 hu)]
  positivity

theorem leftUnits_nonpos {u : ℤ} (hu : u ≤ 0) (k : ℕ) : leftUnits u k ≤ 0 := by
  rcases hu.lt_or_eq with hu | rfl
  · rw [leftUnits, if_pos hu, Left.neg_nonpos_iff]
    positivity
  · simp [leftUnits, roundHalfEven]

/-- The size of a value, in the units that it was counted in. -/
theorem abs_div_mul_pow (u : ℤ) (s : ℕ) : |(u : ℚ) / 10 ^ s| * 10 ^ s = u.natAbs := by
  have hpos : (0 : ℚ) < 10 ^ s := by positivity
  rw [abs_div, abs_of_pos hpos, div_mul_cancel₀ _ hpos.ne', Nat.cast_natAbs, Int.cast_abs]

theorem toRat_of_fit? {u : ℤ} {hs : s ≤ maxScale} {d : Decimal}
    (h : fit? (decide (u < 0)) u.natAbs s hs = some d) :
    ∃ k, excess? u.natAbs s = some k ∧ s = d.scale + k ∧ d.toRat = leftUnits u k / 10 ^ s := by
  obtain ⟨k, hk, hneg, hm, hscale⟩ := fit?_eq_some h
  obtain ⟨hks, -, -⟩ := excess?_eq_some.1 hk
  have hs' : s = d.scale + k := by omega
  refine ⟨k, hk, hs', ?_⟩
  rw [eq_div_iff (by positivity), hs', pow_add, ← mul_assoc, toRat_mul_pow, signed, hneg, hm,
    leftUnits]
  rcases lt_or_ge u 0 with hu | hu
  · simp [hu]
  · simp [not_lt.2 hu]

/-- Nothing is lost of a value that can be written as a decimal. -/
theorem leftUnits_of_representable {u : ℤ} (hk : excess? u.natAbs s = some k)
    (hr : Representable (u / 10 ^ s)) : leftUnits u k = u := by
  obtain ⟨y, hy⟩ := hr
  have hsize : (u.natAbs : ℚ) * 10 ^ y.scale = y.mantissa * 10 ^ s := by
    rw [← abs_div_mul_pow u s, ← abs_toRat_mul_pow, hy]
    ring
  exact leftUnits_eq (roundHalfEven_mul_of_excess? hk y.mantissa_lt (by exact_mod_cast hsize))

/-- A whole number of units is rounded when it is fitted into a decimal. -/
theorem fit?_rounds {u : ℤ} {hs : s ≤ maxScale} {d : Decimal}
    (h : fit? (decide (u < 0)) u.natAbs s hs = some d) : Rounds s (u / 10 ^ s) d := by
  obtain ⟨k, hk, hscale, hval⟩ := toRat_of_fit? h
  have hpos : (0 : ℚ) < 10 ^ s := by positivity
  constructor
  case scale_le => omega
  case near =>
    have hle : 2 * |(leftUnits u k : ℚ) - u| ≤ 10 ^ k := by
      exact_mod_cast abs_leftUnits_sub_le u k
    rw [hval, ← sub_div, abs_div, abs_of_pos hpos, div_le_div_iff₀ hpos (by positivity)]
    calc |(leftUnits u k : ℚ) - u| * 10 ^ d.scale
        ≤ 1 / 2 * 10 ^ k * 10 ^ d.scale := by gcongr; linarith
      _ = 1 / 2 * 10 ^ s := by rw [hscale, pow_add]; ring
  case exact_or_large =>
    rcases Nat.eq_zero_or_pos k with rfl | hkpos
    · left
      rw [hval, leftUnits_eq (by rw [pow_zero, roundHalfEven_one, mul_one])]
    · refine .inr ⟨by omega, ?_⟩
      rw [hval, abs_div_mul_pow, natAbs_leftUnits]
      exact_mod_cast mantissaBound_le_of_excess? hk hkpos
  case exact_of_lt =>
    intro hlt
    -- Fewer units than the bound fit as they are.
    rw [abs_div_mul_pow, Nat.cast_lt] at hlt
    rw [hval, leftUnits_eq (roundHalfEven_mul_of_excess? hk hlt rfl)]
  case exact_of_representable =>
    intro hr
    rw [hval, leftUnits_of_representable hk hr]
  case nonneg =>
    intro hx
    have hu : 0 ≤ u := by simpa using (le_div_iff₀ hpos).1 hx
    rw [hval]
    exact div_nonneg (by exact_mod_cast leftUnits_nonneg hu k) hpos.le
  case nonpos =>
    intro hx
    have hu : u ≤ 0 := by simpa using (div_le_iff₀ hpos).1 hx
    rw [hval]
    exact div_nonpos_of_nonpos_of_nonneg (by exact_mod_cast leftUnits_nonpos hu k) hpos.le

/-! ## Sums -/

variable {a b d : Decimal}

/-- A value that is a whole number of units below the bound is that of a decimal. -/
theorem representable_of_units {s : ℕ} (hs : s ≤ maxScale) {u : ℤ} {x : ℚ}
    (hx : x * 10 ^ s = u) (hu : |u| < mantissaBound) : Representable x := by
  have hlt : u.natAbs < mantissaBound := by rw [← Int.natCast_natAbs] at hu; exact_mod_cast hu
  refine ⟨⟨decide (u < 0), u.natAbs, s, hlt, hs⟩, ?_⟩
  rw [toRat_eq, div_eq_iff (by positivity), hx, signed]
  rcases lt_or_ge u 0 with hneg | hpos
  · simp [hneg, abs_of_neg]
  · simp [not_lt.2 hpos, abs_of_nonneg hpos]

/-- The sum in units of the larger scale. -/
theorem units_add_units (a b : Decimal) :
    ((a.units (max a.scale b.scale) + b.units (max a.scale b.scale) : ℤ) : ℚ) =
      (a.toRat + b.toRat) * 10 ^ max a.scale b.scale := by
  rw [Int.cast_add, units_eq_toRat_mul (le_max_left _ _), units_eq_toRat_mul (le_max_right _ _),
    add_mul]

theorem add?_rounds (h : a.add? b = some d) :
    Rounds (max a.scale b.scale) (a.toRat + b.toRat) d := by
  rw [add?] at h
  split at h
  · cases h
    rw [isZero_iff_toRat.1 ‹a.IsZero›, zero_add]
    exact .of_eq (le_max_right _ _)
  · split at h
    · cases h
      rw [isZero_iff_toRat.1 ‹b.IsZero›, add_zero]
      exact .of_eq (le_max_left _ _)
    · have := fit?_rounds h
      rwa [units_add_units, mul_div_cancel_right₀ _ (by positivity)] at this

theorem sub?_rounds (h : a.sub? b = some d) :
    Rounds (max a.scale b.scale) (a.toRat - b.toRat) d := by
  have := add?_rounds h
  rwa [toRat_neg, scale_neg, ← sub_eq_add_neg] at this

theorem fit?_eq_none {negative : Bool} {hs : s ≤ maxScale} :
    fit? negative n s hs = none ↔ excess? n s = none := by
  rw [fit?]
  split <;> simp_all

/-- A sum is too large from half a unit above the largest mantissa on. -/
theorem add?_eq_none_iff :
    a.add? b = none ↔ (mantissaBound : ℚ) - 1 / 2 ≤ |a.toRat + b.toRat| := by
  have hsmall (d : Decimal) : ¬(mantissaBound : ℚ) - 1 / 2 ≤ |d.toRat| := by
    rw [not_le]
    linarith [d.abs_toRat_le]
  rw [add?]
  split
  · rw [isZero_iff_toRat.1 ‹a.IsZero›, zero_add]
    exact iff_of_false nofun (hsmall b)
  · split
    · rw [isZero_iff_toRat.1 ‹b.IsZero›, add_zero]
      exact iff_of_false nofun (hsmall a)
    · have hpos : (0 : ℚ) < 10 ^ max a.scale b.scale := by positivity
      rw [fit?_eq_none, excess?_eq_none_iff, ← abs_div_mul_pow, mul_div_cancel_right₀ _ hpos.ne',
        units_add_units, mul_div_cancel_right₀ _ hpos.ne']
      constructor <;> intro h <;> linarith

theorem exists_add? (h : |a.toRat + b.toRat| ≤ mantissaBound - 1) : ∃ d, a.add? b = some d := by
  rw [← Option.ne_none_iff_exists', ne_eq, add?_eq_none_iff, not_le]
  linarith

/-- Two decimals that are not negative have a difference. -/
theorem exists_sub? (ha : 0 ≤ a.toRat) (hb : 0 ≤ b.toRat) : ∃ d, a.sub? b = some d := by
  refine exists_add? ?_
  have hale := le_of_abs_le a.abs_toRat_le
  have hble := le_of_abs_le b.abs_toRat_le
  rw [toRat_neg, abs_le]
  constructor <;> linarith

end Passbook.Decimal
