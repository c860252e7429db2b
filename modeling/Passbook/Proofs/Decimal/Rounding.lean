import Mathlib.Data.Rat.Cast.Order
import Mathlib.Tactic.Linarith
import Mathlib.Tactic.Ring
import Mathlib.Tactic.SplitIfs
import Passbook.Decimal.Rounding

/-!
# Rounding to whole numbers

What rounding half to even does, said about the quotient as a rational number.

* `RoundsTo y u`: the whole number `u` is the nearest to `y`, and even if `y` is
  halfway to another one. There is one such number (`RoundsTo.eq`), and a larger
  quotient has no smaller one (`RoundsTo.le_of_le`);
* `RoundsTo.lt_iff`: an even number is reached from half a unit below it on;
* `roundsTo_roundHalfEven`: this is the number that `roundHalfEven` finds;
* `IsNearest x u`: the same about numbers of either sign, by distances.
-/

namespace Passbook

/-- The whole number `u` is the nearest to `y`, and even if `y` is halfway to
    another one. -/
def RoundsTo (y : ℚ) (u : ℕ) : Prop :=
  if u % 2 = 0 then 2 * u - 1 ≤ 2 * y ∧ 2 * y ≤ 2 * u + 1
  else 2 * u - 1 < 2 * y ∧ 2 * y < 2 * u + 1

theorem RoundsTo.bounds {y : ℚ} {u : ℕ} (h : RoundsTo y u) :
    2 * u - 1 ≤ 2 * y ∧ 2 * y ≤ 2 * u + 1 := by
  rw [RoundsTo] at h
  split_ifs at h
  · exact h
  · exact ⟨h.1.le, h.2.le⟩

theorem RoundsTo.strict {y : ℚ} {u : ℕ} (h : RoundsTo y u) (hu : u % 2 ≠ 0) :
    2 * u - 1 < 2 * y ∧ 2 * y < 2 * u + 1 := by
  rwa [RoundsTo, if_neg hu] at h

/-- Rounding stays below an even number exactly if it starts half a unit below. -/
theorem RoundsTo.lt_iff {y : ℚ} {u n : ℕ} (h : RoundsTo y u) (hn : n % 2 = 0) :
    u < n ↔ 2 * y < 2 * n - 1 := by
  obtain ⟨hlow, hhigh⟩ := h.bounds
  constructor
  · intro hlt
    rcases Nat.lt_or_ge (u + 1) n with hlt' | hge
    · have : (u : ℚ) + 2 ≤ n := by exact_mod_cast hlt'
      linarith
    · obtain rfl : n = u + 1 := by omega
      have := (h.strict (by omega)).2
      push_cast
      linarith
  · intro hlt
    by_contra hge
    have : (n : ℚ) ≤ u := by exact_mod_cast not_lt.1 hge
    linarith

theorem RoundsTo.le_of_le {y z : ℚ} {u w : ℕ} (hu : RoundsTo y u) (hw : RoundsTo z w)
    (hyz : y ≤ z) : u ≤ w := by
  by_contra hlt
  obtain ⟨hlow, -⟩ := hu.bounds
  obtain ⟨-, hhigh⟩ := hw.bounds
  have hle : (w : ℚ) + 1 ≤ u := by exact_mod_cast not_le.1 hlt
  -- Both are halfway between two neighbours, and one of these is odd.
  have heq : (u : ℚ) = w + 1 := by linarith
  obtain rfl : u = w + 1 := by exact_mod_cast heq
  rcases Nat.mod_two_eq_zero_or_one w with hmod | hmod
  · have := (hu.strict (by omega)).1
    push_cast at this
    linarith
  · have := (hw.strict (by omega)).2
    linarith

theorem RoundsTo.eq {y : ℚ} {u w : ℕ} (hu : RoundsTo y u) (hw : RoundsTo y w) : u = w :=
  le_antisymm (hu.le_of_le hw le_rfl) (hw.le_of_le hu le_rfl)

/-- An odd number is not the rounding of what is halfway. -/
theorem roundHalfEven_of_odd {n d : ℕ} (hd : 0 < d) (hodd : roundHalfEven n d % 2 ≠ 0) :
    2 * n < 2 * (roundHalfEven n d * d) + d ∧ 2 * (roundHalfEven n d * d) < 2 * n + d := by
  have hn := Nat.div_add_mod n d
  have hr := Nat.mod_lt n hd
  rw [Nat.mul_comm] at hn
  revert hodd
  unfold roundHalfEven
  split
  · omega
  · split
    · rw [Nat.add_mul]; omega
    · split <;> omega

theorem roundsTo_roundHalfEven {n d : ℕ} (hd : 0 < d) :
    RoundsTo ((n : ℚ) / d) (roundHalfEven n d) := by
  have hd' : (0 : ℚ) < d := by exact_mod_cast hd
  have hn : (n : ℚ) / d * d = n := div_mul_cancel₀ _ hd'.ne'
  rw [RoundsTo]
  split_ifs with hodd
  · have hlow : (2 * (roundHalfEven n d * d) : ℚ) ≤ 2 * n + d := by
      exact_mod_cast roundHalfEven_two_mul_le hd
    have hhigh : (2 * n : ℚ) ≤ 2 * (roundHalfEven n d * d) + d := by
      exact_mod_cast two_mul_le_roundHalfEven hd
    exact ⟨le_of_mul_le_mul_right (by linarith) hd', le_of_mul_le_mul_right (by linarith) hd'⟩
  · obtain ⟨hhigh, hlow⟩ := roundHalfEven_of_odd hd hodd
    have hlow : (2 * (roundHalfEven n d * d) : ℚ) < 2 * n + d := by exact_mod_cast hlow
    have hhigh : (2 * n : ℚ) < 2 * (roundHalfEven n d * d) + d := by exact_mod_cast hhigh
    exact ⟨lt_of_mul_lt_mul_right (by linarith) hd'.le, lt_of_mul_lt_mul_right (by linarith) hd'.le⟩

/-- Rounding makes no whole number larger. -/
theorem roundHalfEven_le {n d : ℕ} (hd : 0 < d) : roundHalfEven n d ≤ n := by
  have hle := roundHalfEven_two_mul_le (n := n) hd
  by_contra hlt
  have hmul : (n + 1) * d ≤ roundHalfEven n d * d := Nat.mul_le_mul_right d (not_le.1 hlt)
  have hn : n ≤ n * d := Nat.le_mul_of_pos_right n hd
  rw [Nat.add_mul] at hmul
  omega

/-! ## Numbers of either sign -/

/-- The whole number `u` is the nearest to `x`, and even if another one is as near. -/
structure IsNearest (x : ℚ) (u : ℤ) : Prop where
  le : ∀ v : ℤ, |x - u| ≤ |x - v|
  even : ∀ v : ℤ, v ≠ u → |x - v| = |x - u| → u % 2 = 0

theorem one_le_abs_sub_of_ne {u v : ℤ} (h : v ≠ u) (x : ℚ) : 1 ≤ |x - u| + |x - v| := by
  have hone : (1 : ℚ) ≤ |(v : ℚ) - u| := by
    exact_mod_cast Int.one_le_abs (sub_ne_zero.2 h)
  calc (1 : ℚ) ≤ |(v : ℚ) - u| := hone
    _ = |(x - u) - (x - v)| := by congr 1; ring
    _ ≤ |x - u| + |x - v| := abs_sub _ _

theorem RoundsTo.isNearest {y : ℚ} {u : ℕ} (h : RoundsTo y u) : IsNearest y u := by
  obtain ⟨hlow, hhigh⟩ := h.bounds
  have hhalf : |y - (u : ℤ)| ≤ 1 / 2 := by
    rw [Int.cast_natCast, abs_le]
    constructor <;> linarith
  constructor
  case le =>
    intro v
    rcases eq_or_ne v u with rfl | hne
    · exact le_rfl
    · linarith [one_le_abs_sub_of_ne hne y]
  case even =>
    intro v hne htie
    have hone := one_le_abs_sub_of_ne hne y
    by_contra hodd
    obtain ⟨hlt, hgt⟩ := h.strict (by omega)
    have : |y - (u : ℤ)| < 1 / 2 := by
      rw [Int.cast_natCast, abs_lt]
      constructor <;> linarith
    linarith

theorem IsNearest.neg {x : ℚ} {u : ℤ} (h : IsNearest x u) : IsNearest (-x) (-u) := by
  have habs (v : ℤ) : |-x - v| = |x - (-v : ℤ)| := by
    rw [← abs_neg]
    push_cast
    congr 1
    ring
  constructor
  case le =>
    intro v
    rw [habs, habs, neg_neg]
    exact h.le _
  case even =>
    intro v hne htie
    rw [habs, habs, neg_neg] at htie
    have := h.even (-v) (by omega) htie
    omega

end Passbook
