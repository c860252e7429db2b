import Passbook.Proofs.Binary64.Nearest

/-!
# The shortest decimal of a number

Writing a number finds, of the decimals that are read as the number, the one on
the coarsest grid that is closest to the number.

* `IsShortest m q k p`: the decimal `k * 10 ^ p` is that one for `m * 2 ^ q`;
* `isShortest_shortest`: it is what is found;
* `IsShortest.unique`: there is only one.
-/

namespace Passbook.Binary64

variable {m k : ℕ} {q p : ℤ} {x y : ℚ}

/-! ## Grids -/

theorem ten_zpow_pos (p : ℤ) : (0 : ℚ) < 10 ^ p := zpow_pos (by norm_num) p

/-- The unit in which binary and decimal numbers are compared. -/
def commonUnit (q p : ℤ) : ℚ := 2 ^ (-q).toNat * 10 ^ (-p).toNat

theorem commonUnit_pos (q p : ℤ) : 0 < commonUnit q p := by
  rw [commonUnit]
  positivity

theorem binaryUnits_eq (a : ℕ) (q p : ℤ) :
    (binaryUnits a q p : ℚ) = a * 2 ^ q * commonUnit q p := by
  rw [binaryUnits, commonUnit]
  push_cast
  rw [pow_toNat two_ne_zero q]
  ring

theorem decimalUnits_eq (b : ℕ) (q p : ℤ) :
    (decimalUnits b q p : ℚ) = b * 10 ^ p * commonUnit q p := by
  rw [decimalUnits, commonUnit]
  push_cast
  rw [pow_toNat (by norm_num) p]
  ring

theorem binaryUnits_le_iff (a b : ℕ) :
    binaryUnits a q p ≤ decimalUnits b q p ↔ (a : ℚ) * 2 ^ q ≤ b * 10 ^ p := by
  rw [← Nat.cast_le (α := ℚ), binaryUnits_eq, decimalUnits_eq,
    mul_le_mul_iff_left₀ (commonUnit_pos q p)]

theorem decimalUnits_le_iff (a b : ℕ) :
    decimalUnits b q p ≤ binaryUnits a q p ↔ (b : ℚ) * 10 ^ p ≤ a * 2 ^ q := by
  rw [← Nat.cast_le (α := ℚ), binaryUnits_eq, decimalUnits_eq,
    mul_le_mul_iff_left₀ (commonUnit_pos q p)]

/-- The test for the nearest number tells what a number covers. -/
theorem isNearestTo_iff (hm : 0 < m) : isNearestTo m q k p = true ↔ Covers m q (k * 10 ^ p) := by
  have hgap : (if m = mantissaLimit / 2 ∧ leastExponent < q then 1 else 2) = gap m q := rfl
  have hle : gap m q ≤ 4 * m := by
    rw [gap]
    split_ifs <;> omega
  have hcast : ((4 * m - gap m q : ℕ) : ℚ) = 4 * m - gap m q := by
    push_cast [hle]
    rfl
  rw [isNearestTo, Covers, hgap]
  split_ifs
  · simp only [Bool.and_eq_true, decide_eq_true_eq, binaryUnits_le_iff, decimalUnits_le_iff]
    rw [hcast]
    push_cast
    rw [mul_assoc 4 (k : ℚ)]
  · simp only [Bool.and_eq_true, decide_eq_true_eq, ← not_le, binaryUnits_le_iff,
      decimalUnits_le_iff]
    rw [hcast]
    push_cast
    rw [mul_assoc 4 (k : ℚ)]

/-! ## What a number covers -/

/-- A number covers what lies between two numbers that it covers. -/
theorem Covers.between {z : ℚ} (hx : Covers m q x) (hz : Covers m q z) (hxy : x ≤ y)
    (hyz : y ≤ z) : Covers m q y := by
  rw [Covers] at *
  split_ifs at *
  · exact ⟨by linarith [hx.1], by linarith [hz.2]⟩
  · exact ⟨by linarith [hx.1], by linarith [hz.2]⟩

theorem gap_le (m : ℕ) (q : ℤ) : 0 < gap m q ∧ gap m q ≤ 2 := by
  rw [gap]
  split_ifs <;> decide

/-- A number covers what is closer to it than a quarter of its unit. -/
theorem covers_of_abs_lt (hx : 4 * |x - m * 2 ^ q| < 2 ^ q) : Covers m q x := by
  obtain ⟨hlow, hhigh⟩ := abs_lt.1 (lt_div_iff₀' (by norm_num : (0 : ℚ) < 4) |>.2 hx)
  have hgap : (1 : ℚ) ≤ gap m q := by exact_mod_cast (gap_le m q).1
  have hpos := two_zpow_pos q
  have hle := mul_le_mul_of_nonneg_right hgap hpos.le
  rw [Covers]
  split_ifs
  · constructor <;> linarith
  · constructor <;> linarith

theorem covers_self (m : ℕ) (q : ℤ) : Covers m q (m * 2 ^ q) := by
  refine covers_of_abs_lt ?_
  rw [sub_self, abs_zero, mul_zero]
  exact two_zpow_pos q

theorem Covers.ge (h : Covers m q x) : (4 * m - 2) * 2 ^ q ≤ 4 * x := by
  have hgap : (gap m q : ℚ) ≤ 2 := by exact_mod_cast (gap_le m q).2
  have hlow := mul_le_mul_of_nonneg_right (sub_le_sub_left hgap (4 * (m : ℚ))) (two_zpow_pos q).le
  rw [Covers] at h
  split_ifs at h
  · exact hlow.trans h.1
  · exact hlow.trans h.1.le

theorem Covers.pos (h : Covers m q x) (hm : 0 < m) : 0 < x := by
  have hm : (1 : ℚ) ≤ m := by exact_mod_cast hm
  have hlow : 0 < (4 * m - 2) * (2 : ℚ) ^ q := mul_pos (by linarith) (two_zpow_pos q)
  linarith [h.ge]

theorem Covers.le (h : Covers m q x) : 4 * x ≤ (4 * m + 2) * 2 ^ q := by
  rw [Covers] at h
  split_ifs at h
  · exact h.2
  · exact h.2.le

/-! ## The closest multiple -/

/-- The multiple `k` of `10 ^ p` is no farther from `m * 2 ^ q` than the multiple
    `j`, and the larger one of two that are equally far. -/
def Prefers (m : ℕ) (q p : ℤ) (k j : ℕ) : Prop :=
  |(k : ℚ) * 10 ^ p - m * 2 ^ q| ≤ |(j : ℚ) * 10 ^ p - m * 2 ^ q| ∧
    (|(k : ℚ) * 10 ^ p - m * 2 ^ q| = |(j : ℚ) * 10 ^ p - m * 2 ^ q| → j ≤ k)

/-- The number `m * 2 ^ q` lies between the multiples `k` and `k + 1` of
    `10 ^ p`. -/
structure Brackets (m : ℕ) (q p : ℤ) (k : ℕ) : Prop where
  le : (k : ℚ) * 10 ^ p ≤ m * 2 ^ q
  lt : (m : ℚ) * 2 ^ q < (k + 1 : ℕ) * 10 ^ p

theorem brackets_div (m : ℕ) (q p : ℤ) :
    Brackets m q p (binaryUnits m q p / decimalUnits 1 q p) := by
  have hscale : ∀ a : ℕ, decimalUnits a q p = a * decimalUnits 1 q p := by
    intro a
    simp only [decimalUnits, Nat.one_mul, Nat.mul_assoc]
  have hpos : 0 < decimalUnits 1 q p := by
    rw [decimalUnits]
    positivity
  constructor
  · rw [← decimalUnits_le_iff, hscale]
    exact Nat.div_mul_le_self ..
  · rw [← not_le, ← decimalUnits_le_iff, not_le, hscale]
    exact Nat.lt_mul_of_div_lt (Nat.lt_succ_self _) hpos

theorem Brackets.abs_of_le {j : ℕ} (h : Brackets m q p k) (hj : j ≤ k) :
    |(j : ℚ) * 10 ^ p - m * 2 ^ q| = m * 2 ^ q - j * 10 ^ p := by
  have hle : (j : ℚ) * 10 ^ p ≤ k * 10 ^ p := by gcongr
  rw [abs_of_nonpos (by linarith [h.le]), neg_sub]

theorem Brackets.abs_of_lt {j : ℕ} (h : Brackets m q p k) (hj : k < j) :
    |(j : ℚ) * 10 ^ p - m * 2 ^ q| = j * 10 ^ p - m * 2 ^ q := by
  have hle : ((k + 1 : ℕ) : ℚ) * 10 ^ p ≤ j * 10 ^ p := by gcongr; exact hj
  rw [abs_of_nonneg (by linarith [h.lt])]

theorem Brackets.prefers_of_le {j : ℕ} (h : Brackets m q p k) (hj : j ≤ k) :
    Prefers m q p k j := by
  have hle : (j : ℚ) * 10 ^ p ≤ k * 10 ^ p := by gcongr
  rw [Prefers, h.abs_of_le hj, h.abs_of_le le_rfl]
  exact ⟨by linarith, fun _ => hj⟩

theorem Brackets.prefers_succ_of_lt {j : ℕ} (h : Brackets m q p k) (hj : k < j) :
    Prefers m q p (k + 1) j := by
  have hle : ((k + 1 : ℕ) : ℚ) * 10 ^ p ≤ j * 10 ^ p := by gcongr; exact hj
  rw [Prefers, h.abs_of_lt hj, h.abs_of_lt (Nat.lt_succ_self k)]
  refine ⟨by linarith, fun heq => ?_⟩
  have heq : ((k + 1 : ℕ) : ℚ) = j := mul_right_cancel₀ (ten_zpow_pos p).ne' (by linarith)
  exact_mod_cast heq.ge

/-- Below the middle, the multiple below is preferred, -/
theorem Brackets.prefers_of_lt {j : ℕ} (h : Brackets m q p k)
    (hlt : 2 * ((m : ℚ) * 2 ^ q) < (2 * k + 1) * 10 ^ p) (hj : k < j) : Prefers m q p k j := by
  have hle : ((k + 1 : ℕ) : ℚ) * 10 ^ p ≤ j * 10 ^ p := by gcongr; exact hj
  push_cast at hle
  rw [Prefers, h.abs_of_lt hj, h.abs_of_le le_rfl]
  exact ⟨by linarith, fun heq => by linarith⟩

/-- and from the middle on, the one above. -/
theorem Brackets.prefers_succ_of_le {j : ℕ} (h : Brackets m q p k)
    (hle : (2 * k + 1) * 10 ^ p ≤ 2 * ((m : ℚ) * 2 ^ q)) (hj : j ≤ k) :
    Prefers m q p (k + 1) j := by
  have hle' : (j : ℚ) * 10 ^ p ≤ k * 10 ^ p := by gcongr
  rw [Prefers, h.abs_of_le hj, h.abs_of_lt (Nat.lt_succ_self k)]
  push_cast
  exact ⟨by linarith, fun _ => by omega⟩

/-- If a multiple is covered, so is the one next to the number on its side. -/
theorem Brackets.covers_of_le {j : ℕ} (h : Brackets m q p k) (hj : j ≤ k)
    (hc : Covers m q (j * 10 ^ p)) : Covers m q (k * 10 ^ p) :=
  hc.between (covers_self m q) (by gcongr) h.le

theorem Brackets.covers_succ_of_lt {j : ℕ} (h : Brackets m q p k) (hj : k < j)
    (hc : Covers m q (j * 10 ^ p)) : Covers m q ((k + 1 : ℕ) * 10 ^ p) :=
  (covers_self m q).between hc h.lt.le (by gcongr; exact hj)

theorem onGrid?_eq_none (hm : 0 < m) (h : onGrid? m q p = none) (j : ℕ) :
    ¬Covers m q (j * 10 ^ p) := by
  have hk := brackets_div m q p
  simp only [onGrid?] at h
  generalize binaryUnits m q p / decimalUnits 1 q p = k at *
  intro hc
  split at h
  case h_4 hlow hhigh =>
    rw [Bool.eq_false_iff, Ne, isNearestTo_iff hm] at hlow hhigh
    rcases Nat.lt_or_ge k j with hj | hj
    · exact hhigh (hk.covers_succ_of_lt hj hc)
    · exact hlow (hk.covers_of_le hj hc)
  all_goals cases h

theorem onGrid?_eq_some (hm : 0 < m) (h : onGrid? m q p = some k) :
    Covers m q (k * 10 ^ p) ∧ ∀ j : ℕ, Covers m q (j * 10 ^ p) → Prefers m q p k j := by
  have hk := brackets_div m q p
  simp only [onGrid?] at h
  generalize binaryUnits m q p / decimalUnits 1 q p = l at *
  -- If only one of the two multiples next to the number is covered, no multiple on
  -- the other side is.
  split at h
  case h_1 hlow hhigh =>
    rw [isNearestTo_iff hm] at hlow hhigh
    have hmiddle : 2 * binaryUnits m q p < decimalUnits (2 * l + 1) q p ↔
        2 * ((m : ℚ) * 2 ^ q) < (2 * l + 1) * 10 ^ p := by
      have hdouble : 2 * binaryUnits m q p = binaryUnits (2 * m) q p := by
        simp only [binaryUnits, Nat.mul_assoc]
      rw [hdouble, ← not_le, decimalUnits_le_iff, not_le]
      push_cast
      rw [mul_assoc]
    split_ifs at h with hlt
    · obtain rfl := Option.some.inj h
      refine ⟨hlow, fun j _ => ?_⟩
      rcases Nat.lt_or_ge l j with hj | hj
      · exact hk.prefers_of_lt (hmiddle.1 hlt) hj
      · exact hk.prefers_of_le hj
    · obtain rfl := Option.some.inj h
      refine ⟨hhigh, fun j _ => ?_⟩
      rw [hmiddle, not_lt] at hlt
      rcases Nat.lt_or_ge l j with hj | hj
      · exact hk.prefers_succ_of_lt hj
      · exact hk.prefers_succ_of_le hlt hj
  case h_2 hlow hhigh =>
    rw [isNearestTo_iff hm] at hlow
    rw [Bool.eq_false_iff, Ne, isNearestTo_iff hm] at hhigh
    obtain rfl := Option.some.inj h
    refine ⟨hlow, fun j hc => hk.prefers_of_le ?_⟩
    by_contra hj
    exact hhigh (hk.covers_succ_of_lt (not_le.1 hj) hc)
  case h_3 hlow hhigh =>
    rw [Bool.eq_false_iff, Ne, isNearestTo_iff hm] at hlow
    rw [isNearestTo_iff hm] at hhigh
    obtain rfl := Option.some.inj h
    refine ⟨hhigh, fun j hc => hk.prefers_succ_of_lt ?_⟩
    by_contra hj
    exact hlow (hk.covers_of_le (not_lt.1 hj) hc)
  case h_4 => cases h

/-! ## The coarsest grid -/

/-- The logarithms of `2` and `10` are as `30103` and `100000`, closely enough for
    the exponents of numbers. -/
theorem two_zpow_le_ten_zpow {a : ℤ} (hlow : -1100 ≤ a) (hhigh : a ≤ 1100) :
    (2 : ℚ) ^ a ≤ 10 ^ (a * 30103 / 100000 + 2) := by
  generalize ht : a * 30103 / 100000 + 2 = t
  rcases le_or_gt 0 a with ha | ha
  · have hpow : ((2 : ℚ) ^ a) ^ (93 : ℤ) ≤ (10 ^ t) ^ (93 : ℤ) :=
      calc ((2 : ℚ) ^ a) ^ (93 : ℤ) = (2 ^ (93 : ℤ)) ^ a := zpow_comm ..
        _ ≤ (10 ^ (28 : ℤ)) ^ a := zpow_le_zpow_left₀ ha (by positivity) (by norm_num)
        _ = 10 ^ (28 * a) := (zpow_mul ..).symm
        _ ≤ 10 ^ (t * 93) := zpow_le_zpow_right₀ (by norm_num) (by omega)
        _ = (10 ^ t) ^ (93 : ℤ) := zpow_mul ..
    exact (zpow_le_zpow_iff_left₀ (by positivity) (by positivity) (by norm_num)).1 hpow
  · have hinv : ((2 : ℚ) ^ (103 : ℤ)) ^ a ≤ (10 ^ (31 : ℤ)) ^ a := by
      obtain ⟨b, rfl⟩ : ∃ b, a = -b := ⟨-a, (neg_neg a).symm⟩
      rw [zpow_neg, zpow_neg]
      refine inv_anti₀ (by positivity) ?_
      exact zpow_le_zpow_left₀ (by omega) (by positivity) (by norm_num)
    have hpow : ((2 : ℚ) ^ a) ^ (103 : ℤ) ≤ (10 ^ t) ^ (103 : ℤ) :=
      calc ((2 : ℚ) ^ a) ^ (103 : ℤ) = (2 ^ (103 : ℤ)) ^ a := zpow_comm ..
        _ ≤ (10 ^ (31 : ℤ)) ^ a := hinv
        _ = 10 ^ (31 * a) := (zpow_mul ..).symm
        _ ≤ 10 ^ (t * 103) := zpow_le_zpow_right₀ (by norm_num) (by omega)
        _ = (10 ^ t) ^ (103 : ℤ) := zpow_mul ..
    exact (zpow_le_zpow_iff_left₀ (by positivity) (by positivity) (by norm_num)).1 hpow

/-- On the coarsest grid that is tried, or a coarser one, nothing is covered. -/
theorem Canonical.lt_coarsestGrid (h : Canonical m q) (hm : 0 < m)
    (hc : Covers m q (k * 10 ^ p)) : p < coarsestGrid m q := by
  have hpos := ten_zpow_pos p
  have hk : (1 : ℚ) ≤ k := by
    have hk : (0 : ℚ) < k := pos_of_mul_pos_left (hc.pos hm) hpos.le
    exact_mod_cast hk
  have hlog : (m : ℚ) < 2 ^ (m.log2 + 1 : ℤ) := by exact_mod_cast Nat.lt_log2_self
  have hm' : (1 : ℚ) ≤ m := by exact_mod_cast hm
  have hlt : (10 : ℚ) ^ p < 2 ^ ((m.log2 : ℤ) + q + 2) :=
    calc (10 : ℚ) ^ p ≤ k * 10 ^ p := le_mul_of_one_le_left hpos.le hk
      _ ≤ 2 * m * 2 ^ q := by
        have := mul_le_mul_of_nonneg_right hm' (two_zpow_pos q).le
        linarith [hc.le, two_zpow_pos q]
      _ < 2 * 2 ^ (m.log2 + 1 : ℤ) * 2 ^ q := by
        have := two_zpow_pos q
        gcongr
      _ = 2 ^ ((m.log2 : ℤ) + q + 2) := by
        rw [← zpow_one_add₀ two_ne_zero, ← zpow_add₀ two_ne_zero]
        congr 1
        ring
  have hsize : m.log2 < 53 := (Nat.log2_lt hm.ne').2 h.lt
  have hleast : -1074 ≤ q := h.least_le
  have hlargest : q ≤ 971 := h.le_largest
  have hle := two_zpow_le_ten_zpow (a := (m.log2 : ℤ) + q + 2) (by omega) (by omega)
  exact (zpow_lt_zpow_iff_right₀ (by norm_num)).1 (hlt.trans_le hle)

/-- On the finest grid that is tried lies the number itself. -/
theorem exists_eq_on_finestGrid (m : ℕ) (q : ℤ) :
    ∃ k : ℕ, (k : ℚ) * 10 ^ min q 0 = m * 2 ^ q := by
  rcases le_or_gt 0 q with hq | hq
  · obtain ⟨a, rfl⟩ := Int.eq_ofNat_of_zero_le hq
    refine ⟨m * 2 ^ a, ?_⟩
    rw [min_eq_right hq]
    simp
  · obtain ⟨a, rfl⟩ : ∃ a : ℕ, q = -(a : ℤ) := ⟨(-q).toNat, by omega⟩
    refine ⟨m * 5 ^ a, ?_⟩
    have hten : (10 : ℚ) ^ a = 2 ^ a * 5 ^ a := by rw [← mul_pow]; norm_num
    rw [min_eq_left hq.le, zpow_neg, zpow_neg, zpow_natCast, zpow_natCast, hten]
    push_cast
    field_simp

/-! ## The shortest decimal -/

/-- Of the decimals that are read as the number `m * 2 ^ q`, the decimal
    `k * 10 ^ p` lies on the coarsest grid, and closest to the number there. -/
structure IsShortest (m : ℕ) (q : ℤ) (k : ℕ) (p : ℤ) : Prop where
  nearest_eq : nearest false k p = finite false m q
  coarsest : ∀ (j : ℕ) (r : ℤ), nearest false j r = finite false m q → r ≤ p
  prefers : ∀ j : ℕ, nearest false j p = finite false m q → Prefers m q p k j

theorem IsShortest.unique {l : ℕ} {r : ℤ} (h : IsShortest m q k p) (h' : IsShortest m q l r) :
    k = l ∧ p = r := by
  obtain rfl : p = r := le_antisymm (h'.coarsest k p h.nearest_eq) (h.coarsest l r h'.nearest_eq)
  obtain ⟨hle, hkl⟩ := h.prefers l h'.nearest_eq
  obtain ⟨hge, hlk⟩ := h'.prefers k h.nearest_eq
  have heq := le_antisymm hle hge
  exact ⟨le_antisymm (hlk heq.symm) (hkl heq), rfl⟩

theorem Canonical.nearest_eq_iff (h : Canonical m q) (j : ℕ) (r : ℤ) :
    nearest false j r = finite false m q ↔ Covers m q (j * 10 ^ r) := by
  rw [nearest_eq_finite_iff, and_iff_right h]

theorem exists_of_findSome?_range {α : Type} {f : ℕ → Option α} {n : ℕ} {a : α}
    (h : (List.range n).findSome? f = some a) : ∃ i, f i = some a ∧ ∀ j < i, f j = none := by
  induction n with
  | zero => cases h
  | succ n ih =>
    rw [List.range_succ, List.findSome?_append, Option.or_eq_some_iff] at h
    rcases h with h | ⟨hnone, h⟩
    · exact ih h
    · refine ⟨n, by simpa using h, fun j hj => ?_⟩
      exact List.findSome?_eq_none_iff.1 hnone j (List.mem_range.2 hj)

/-- The grids are tried from coarse to fine, so the first decimal that is found is
    the shortest. -/
theorem isShortest_shortest (h : Canonical m q) (hm : 0 < m) :
    IsShortest m q (shortest m q).1 (shortest m q).2 := by
  let grid (i : ℕ) := (onGrid? m q (coarsestGrid m q - i)).map fun k => (k, coarsestGrid m q - i)
  cases hfind : (List.range ((coarsestGrid m q - min q 0).toNat + 1)).findSome? grid with
  | none =>
    -- The last grid cannot be without a decimal.
    obtain ⟨k, hk⟩ := exists_eq_on_finestGrid m q
    have hc : Covers m q (k * 10 ^ min q 0) := hk ▸ covers_self m q
    have hlt := h.lt_coarsestGrid hm hc
    have hlast := List.findSome?_eq_none_iff.1 hfind (coarsestGrid m q - min q 0).toNat
      (List.mem_range.2 (Nat.lt_succ_self _))
    rw [Option.map_eq_none_iff, Int.toNat_of_nonneg (by omega), sub_sub_cancel] at hlast
    exact absurd hc (onGrid?_eq_none hm hlast k)
  | some x =>
    have hshortest : shortest m q = x := by
      rw [shortest]
      exact congrArg (Option.getD · (0, 0)) hfind
    obtain ⟨i, hi, hbefore⟩ := exists_of_findSome?_range hfind
    obtain ⟨k, hk, rfl⟩ := Option.map_eq_some_iff.1 hi
    obtain ⟨hcovers, hprefers⟩ := onGrid?_eq_some hm hk
    rw [hshortest]
    refine ⟨(h.nearest_eq_iff ..).2 hcovers, fun j r hr => ?_, fun j hj => ?_⟩
    · -- A coarser grid with a decimal would have been tried before.
      rw [h.nearest_eq_iff] at hr
      have hlt := h.lt_coarsestGrid hm hr
      by_contra hlate
      have hnone := hbefore (coarsestGrid m q - r).toNat (by omega)
      rw [Option.map_eq_none_iff, Int.toNat_of_nonneg (by omega), sub_sub_cancel] at hnone
      exact onGrid?_eq_none hm hnone j hr
    · exact hprefers j ((h.nearest_eq_iff ..).1 hj)

/-- A shortest decimal has few digits: a number with many covers a multiple of the
    next coarser grid. -/
theorem IsShortest.lt (h : IsShortest m q k p) : k < 40 * mantissaLimit := by
  obtain ⟨hcanonical, hcovers⟩ := nearest_eq_finite_iff.1 h.nearest_eq
  have hten : (10 : ℚ) ^ (p + 1) = 10 * 10 ^ p := by
    rw [add_comm, zpow_one_add₀ (by norm_num)]
  have hunit : (2 : ℚ) ^ q < 40 * 10 ^ p := by
    by_contra hle
    -- Otherwise the multiple of `10 ^ (p + 1)` below the number is close enough.
    have hk := brackets_div m q (p + 1)
    generalize binaryUnits m q (p + 1) / decimalUnits 1 q (p + 1) = j at hk
    have hc : Covers m q (j * 10 ^ (p + 1)) := by
      refine covers_of_abs_lt ?_
      rw [hk.abs_of_le le_rfl]
      have := hk.lt
      push_cast at this
      linarith
    have := h.coarsest j (p + 1) ((hcanonical.nearest_eq_iff ..).2 hc)
    omega
  have hm : (m : ℚ) + 1 ≤ mantissaLimit := by exact_mod_cast hcanonical.lt
  have hlt : (k : ℚ) * 10 ^ p < (40 * mantissaLimit : ℕ) * 10 ^ p :=
    calc (k : ℚ) * 10 ^ p ≤ (m + 1) * 2 ^ q := by linarith [hcovers.le, two_zpow_pos q]
      _ ≤ mantissaLimit * 2 ^ q := by gcongr
      _ < mantissaLimit * (40 * 10 ^ p) := by
        have : (0 : ℚ) < mantissaLimit := by rw [mantissaLimit_eq]; positivity
        gcongr
      _ = (40 * mantissaLimit : ℕ) * 10 ^ p := by push_cast; ring
  exact_mod_cast lt_of_mul_lt_mul_right hlt (ten_zpow_pos p).le

end Passbook.Binary64
