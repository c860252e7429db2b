import Mathlib.Data.List.TakeWhile
import Mathlib.Data.Nat.Factorization.Basic
import Passbook.Proofs.Binary64.Shortest
import Passbook.Proofs.Decimal.Reading

/-!
# Decimals and numbers in 64 bits as texts

What decimals are written as can be read as a number in 64 bits, and what such
numbers are written as can be read as a decimal.

* `ofChars?_chars`: a decimal with a point is read as the number nearest to it;
* `toRat_of_read_positional`, `exists_read_positional`: a number is read as its
  shortest decimal, as long as there is room for it;
* `read_nearest_iff`: so a decimal that is read as a number, which is then
  written and read as a decimal again, comes back exactly if it is the shortest
  decimal of the number.
-/

namespace Passbook

/-! ## Decimals without trailing zeros -/

section

variable {n k : ℕ} {e p : ℤ} {d : Decimal}

/-- A decimal that does not end in a zero lies on no coarser grid. -/
theorem eq_of_mul_zpow_eq (hn : ¬10 ∣ n) (hle : e ≤ p) (h : (n : ℚ) * 10 ^ e = k * 10 ^ p) :
    n = k ∧ e = p := by
  obtain ⟨t, rfl⟩ : ∃ t : ℕ, p = e + t := ⟨(p - e).toNat, by omega⟩
  have hk : (n : ℚ) = (k * 10 ^ t : ℕ) := by
    rw [zpow_add₀ (by norm_num), zpow_natCast] at h
    refine mul_right_cancel₀ (Binary64.ten_zpow_pos e).ne' ?_
    push_cast
    linarith
  have hk : n = k * 10 ^ t := by exact_mod_cast hk
  rcases Nat.eq_zero_or_pos t with rfl | ht
  · simpa using hk
  · exact absurd (hk ▸ (dvd_pow_self 10 ht.ne').mul_left k) hn

/-- The mantissa of a decimal is its value without trailing zeros, and the zeros. -/
theorem Decimal.exists_mantissa_eq (hn : ¬10 ∣ n) (h : |d.toRat| = n * 10 ^ e) :
    ∃ t : ℕ, d.mantissa = n * 10 ^ t ∧ e = t - d.scale := by
  have hmantissa : (n : ℚ) * 10 ^ e = d.mantissa * 10 ^ (-(d.scale : ℤ)) := by
    rw [← h, zpow_neg, zpow_natCast, ← d.abs_toRat_mul_pow]
    field_simp
  rcases le_or_gt e (-d.scale) with hle | hlt
  · obtain ⟨rfl, rfl⟩ := eq_of_mul_zpow_eq hn hle hmantissa
    exact ⟨0, by simp, by simp⟩
  · obtain ⟨t, rfl⟩ : ∃ t : ℕ, e = t - d.scale := ⟨(e + d.scale).toNat, by omega⟩
    refine ⟨t, ?_, rfl⟩
    rw [sub_eq_add_neg, zpow_add₀ (by norm_num), ← mul_assoc] at hmantissa
    have := mul_right_cancel₀ (Binary64.ten_zpow_pos _).ne' hmantissa
    rw [zpow_natCast] at this
    exact_mod_cast this.symm

end

namespace Binary64

open Decimal (Sign)

variable {m n k : ℕ} {q e p : ℤ} {ds es cs : List Char} {negative : Bool} {a d : Decimal}

/-! ## Decimals read as numbers -/

theorem toLower_of_isDigit {c : Char} (hc : c.isDigit = true) : c.toLower = c := by
  rw [Char.isDigit, Bool.and_eq_true, decide_eq_true_eq, decide_eq_true_eq] at hc
  refine dif_neg ?_
  rintro ⟨hle, -⟩
  exact absurd (UInt32.le_trans hle hc.2) (by decide)

theorem toLower_of_startsNumber {c : Char} (hc : StartsNumber c) : c.toLower = c := by
  rcases hc with hc | rfl
  · exact toLower_of_isDigit hc
  · rfl

/-- A text that starts with a digit or the point is none of the words. -/
theorem ofUnsigned?_cons {c : Char} (hc : StartsNumber c) :
    ofUnsigned? negative (c :: cs) = ofDigits? negative (c :: cs) := by
  have hword : ∀ (d : Char) (w : String), w.toList.head? = some d → ¬StartsNumber d →
      String.ofList ((c :: cs).map Char.toLower) ≠ w := by
    rintro d w hw hd rfl
    rw [String.toList_ofList, List.map_cons, List.head?_cons, toLower_of_startsNumber hc] at hw
    exact hd (Option.some.inj hw ▸ hc)
  rw [ofUnsigned?]
  simp only [hword 'i' "inf" rfl (by decide), hword 'i' "infinity" rfl (by decide),
    hword 'n' "nan" rfl (by decide), or_self, if_false]

theorem ofChars?_sign (s : Sign) {c : Char} (hc : StartsNumber c) :
    ofChars? (s.chars ++ c :: cs) = ofDigits? s.isMinus (c :: cs) := by
  rw [← ofUnsigned?_cons hc]
  cases s with
  | none =>
    obtain ⟨hplus, hminus⟩ := hc.ne_sign
    rw [Sign.chars, List.nil_append, ofChars?]
    · rfl
    · exact fun _ h => hminus (List.cons.inj h).1
    · exact fun _ h => hplus (List.cons.inj h).1
  | plus => rfl
  | minus => rfl

/-- Digits on both sides of a point are read as the number nearest to what they
    stand for. -/
theorem ofDigits?_pointed (hds : IsDigits ds) (hes : IsDigits es) (hne : ds ++ es ≠ []) :
    ofDigits? negative (ds ++ '.' :: es) =
      some (nearest negative (Nat.ofDigitChars 10 (ds ++ es) 0) (-(es.length : ℤ))) := by
  have htake : (ds ++ '.' :: es).takeWhile Char.isDigit = ds := by
    rw [List.takeWhile_append_of_pos hds]
    simp
  have hdrop : (ds ++ '.' :: es).dropWhile Char.isDigit = '.' :: es := by
    rw [List.dropWhile_append_of_pos hds]
    rfl
  have htake' : es.takeWhile Char.isDigit = es := List.takeWhile_eq_self_iff.2 hes
  have hdrop' : es.dropWhile Char.isDigit = [] := List.dropWhile_eq_nil_iff.2 hes
  simp only [ofDigits?, htake, hdrop, htake', hdrop', if_neg hne, exponent?, Option.map_some,
    zero_sub]

/-- A decimal with a point is read as the number nearest to it. -/
theorem ofChars?_chars (d : Decimal) (hscale : d.scale ≠ 0) :
    ofChars? d.chars = some (nearest d.negative d.mantissa (-(d.scale : ℤ))) := by
  have hwhole := isDigits_toDigits (d.mantissa / 10 ^ d.scale)
  have hfraction := isDigits_lastDigits d.scale d.mantissa
  obtain ⟨c, cs, hcs, hc⟩ := hwhole.exists_cons Nat.toDigits_ne_nil
    ('.' :: lastDigits d.scale d.mantissa)
  rw [d.chars_eq, pointed, if_neg hscale, hcs, ofChars?_sign _ hc, ← hcs,
    ofDigits?_pointed hwhole hfraction (by simp [Nat.toDigits_ne_nil]), Sign.isMinus_ofNegative,
    Nat.ofDigitChars_append, ofDigitChars_lastDigits, Nat.ofDigitChars_ten_toDigits,
    Nat.div_add_mod', length_lastDigits]

/-! ## Numbers read as decimals -/

theorem chars_finite (negative : Bool) (m : ℕ) (q : ℤ) :
    (finite negative m q).chars = (Sign.ofNegative negative).chars ++
      if m = 0 then ['0'] else positional (shortest m q).1 (shortest m q).2 := by
  cases negative <;> rfl

theorem positional_neg (k t : ℕ) : positional k (-(t : ℤ)) = pointed k t := by
  rw [positional]
  split_ifs with ht
  · obtain rfl : t = 0 := by omega
    simp [pointed]
  · rw [neg_neg, Int.toNat_natCast]

/-- The digits of a whole number, and what they stand for. -/
theorem isDigits_positional (hp : 0 ≤ p) : IsDigits (positional k p) ∧ positional k p ≠ [] ∧
    (Nat.ofDigitChars 10 (positional k p) 0 : ℚ) = k * 10 ^ p := by
  obtain ⟨t, rfl⟩ := Int.eq_ofNat_of_zero_le hp
  rw [positional, if_pos hp]
  refine ⟨(isDigits_toDigits k).append (isDigits_replicate_zero _), ?_, ?_⟩
  · simp [Nat.toDigits_ne_nil]
  · rw [Nat.ofDigitChars_append, Nat.ofDigitChars_ten_toDigits, Nat.ofDigitChars_replicate_zero]
    push_cast
    simp [mul_comm]

/-- A decimal is read as it is, if there is room for its digits. -/
theorem toRat_of_read_positional {s : Sign} (hp : -(maxScale : ℤ) ≤ p) (hk : k < mantissaBound)
    (h : Decimal.read (s.chars ++ positional k p) = .ok a) : a.toRat = s.value (k * 10 ^ p) := by
  rcases le_or_gt 0 p with hp₀ | hp₀
  · obtain ⟨hds, hne, hvalue⟩ := @isDigits_positional k p hp₀
    rw [Decimal.toRat_of_read_digits hds hne h, hvalue]
  · obtain ⟨t, rfl⟩ : ∃ t : ℕ, p = -(t : ℤ) := ⟨(-p).toNat, by omega⟩
    let d : Decimal := ⟨false, k, t, hk, by omega⟩
    rw [positional_neg, Decimal.read_pointed (d := d) s rfl, Except.ok.injEq] at h
    rw [← h, s.toRat_apply, d.toRat_eq_value, zpow_neg, zpow_natCast]
    rfl

/-- There is room for the digits of what is the value of a decimal. -/
theorem exists_read_positional (s : Sign) (hk : ¬10 ∣ k) (h : |d.toRat| = k * 10 ^ p) :
    ∃ a, Decimal.read (s.chars ++ positional k p) = .ok a := by
  obtain ⟨t, hmantissa, rfl⟩ := Decimal.exists_mantissa_eq hk h
  have hle : k ≤ d.mantissa := hmantissa ▸ Nat.le_mul_of_pos_right k (by positivity)
  rcases le_or_gt 0 ((t : ℤ) - d.scale) with hp | hp
  · obtain ⟨hds, hne, hvalue⟩ := @isDigits_positional k _ hp
    refine Decimal.exists_read_digits s hds hne ?_
    have hlt : (Nat.ofDigitChars 10 (positional k ((t : ℤ) - d.scale)) 0 : ℚ) < mantissaBound := by
      rw [hvalue, ← h]
      have := d.abs_toRat_le
      linarith
    exact_mod_cast hlt
  · have hscale := d.scale_le
    let c : Decimal := ⟨false, k, d.scale - t, hle.trans_lt d.mantissa_lt, by omega⟩
    rw [show (t : ℤ) - d.scale = -((d.scale - t : ℕ) : ℤ) by omega, positional_neg]
    exact ⟨_, Decimal.read_pointed (d := c) s rfl⟩

/-! ## From decimals to numbers and back -/

/-- The value `x` without trailing zeros is the shortest decimal of the number that
    it is read as. Nothing is asked of zero. -/
def Survives (x : ℚ) : Prop :=
  ∀ (n : ℕ) (e : ℤ), ¬10 ∣ n → |x| = n * 10 ^ e → ∃ m q, IsShortest m q n e

/-- No decimal but zero is small enough to be read as zero. -/
theorem pos_of_nearest_eq (hn : n ≠ 0) (hd : |d.toRat| = n * 10 ^ e)
    (h : nearest negative n e = finite negative m q) : 0 < m := by
  rw [Nat.pos_iff_ne_zero]
  rintro rfl
  obtain ⟨hcanonical, hcovers⟩ := nearest_eq_finite_iff.1 h
  have hsmall := hcovers.le
  have hpow : (2 : ℚ) ^ leastExponent ≤ 2 ^ (-100 : ℤ) :=
    zpow_le_zpow_right₀ one_le_two (by decide)
  have hlarge : 1 ≤ |d.toRat| * 10 ^ maxScale := by
    refine Decimal.one_le_abs_toRat_mul_pow (abs_pos.1 ?_)
    have := ten_zpow_pos e
    rw [hd]
    positivity
  rw [← hd, hcanonical.eq_leastExponent] at hsmall
  norm_num [maxScale] at hlarge hpow hsmall
  linarith

theorem abs_value_mul_zpow (s : Sign) (n : ℕ) (e : ℤ) : |s.value (n * 10 ^ e)| = n * 10 ^ e := by
  have := ten_zpow_pos e
  rw [s.abs_value, abs_of_nonneg (by positivity)]

/-- The shortest decimal of the number that a decimal is read as is no finer than the
    decimal itself, so there is room for its digits. -/
theorem toRat_of_read_isShortest {s : Sign} (hn : ¬10 ∣ n) (hd : |d.toRat| = n * 10 ^ e)
    (hreads : nearest false n e = finite false m q) (h : IsShortest m q k p)
    (ha : Decimal.read (s.chars ++ positional k p) = .ok a) : a.toRat = s.value (k * 10 ^ p) := by
  have hle := h.coarsest n e hreads
  obtain ⟨t, -, he⟩ := Decimal.exists_mantissa_eq hn hd
  have hscale := d.scale_le
  exact toRat_of_read_positional (by omega) (h.lt.trans (by decide)) ha

/-- Without trailing zeros, a decimal comes back from its number exactly if it is
    the shortest decimal of the number. -/
theorem read_nearest_iff_isShortest (hn : ¬10 ∣ n)
    (hd : d.toRat = (Sign.ofNegative negative).value (n * 10 ^ e)) :
    (∃ a, Decimal.read (nearest negative n e).chars = .ok a ∧ a.SameValue d) ↔
      ∃ m q, IsShortest m q n e := by
  have habs : |d.toRat| = n * 10 ^ e := by rw [hd, abs_value_mul_zpow]
  rcases nearest_cases negative n e with ⟨m, q, hnearest⟩ | hnearest
  · have hm := pos_of_nearest_eq (by rintro rfl; simp at hn) habs hnearest
    have hcanonical := (nearest_eq_finite_iff.1 hnearest).1
    have hreads : nearest false n e = finite false m q := nearest_eq_finite_of rfl hnearest
    have hshortest := isShortest_shortest hcanonical hm
    rw [hnearest, chars_finite, if_neg hm.ne']
    constructor
    · rintro ⟨a, ha, hsame⟩
      rw [Decimal.sameValue_iff, toRat_of_read_isShortest hn habs hreads hshortest ha, hd] at hsame
      obtain ⟨hk, hp⟩ := eq_of_mul_zpow_eq hn (hshortest.coarsest n e hreads)
        (Sign.value_injective _ hsame).symm
      exact ⟨m, q, hk ▸ hp ▸ hshortest⟩
    · rintro ⟨m', q', h⟩
      have hfinite := hreads.symm.trans h.nearest_eq
      simp only [finite.injEq, true_and] at hfinite
      obtain ⟨rfl, rfl⟩ := hfinite
      obtain ⟨hk, hp⟩ := hshortest.unique h
      rw [hk, hp]
      obtain ⟨a, ha⟩ := exists_read_positional (Sign.ofNegative negative) hn habs
      refine ⟨a, ha, ?_⟩
      rw [Decimal.sameValue_iff, toRat_of_read_isShortest hn habs hreads h ha, hd]
  · -- What is too large for a number is written as a word.
    refine iff_of_false ?_ ?_
    · rintro ⟨a, ha, -⟩
      rw [hnearest] at ha
      cases negative <;> cases ha
    · rintro ⟨m, q, h⟩
      rw [nearest_eq_finite_of rfl h.nearest_eq] at hnearest
      cases hnearest

theorem exists_read_nearest_zero (negative : Bool) (e : ℤ) :
    ∃ a, Decimal.read (nearest negative 0 e).chars = .ok a ∧ a.toRat = 0 := by
  have hzero : nearest negative 0 e = finite negative 0 leastExponent := by
    rw [nearest, if_pos (Or.inl rfl)]
  have hds : IsDigits ['0'] := isDigits_replicate_zero 1
  rw [hzero, chars_finite, if_pos rfl]
  obtain ⟨a, ha⟩ := Decimal.exists_read_digits (Sign.ofNegative negative) hds (by decide) (by decide)
  refine ⟨a, ha, ?_⟩
  rw [Decimal.toRat_of_read_digits hds (by decide) ha]
  cases negative <;> simp [Sign.value, Sign.ofNegative, Nat.ofDigitChars_cons]

/-- A decimal that is read as a number, which is then written and read as a decimal
    again, comes back exactly if its value survives. -/
theorem read_nearest_iff (hd : d.toRat = (Sign.ofNegative negative).value (n * 10 ^ e)) :
    (∃ a, Decimal.read (nearest negative n e).chars = .ok a ∧ a.SameValue d) ↔
      Survives d.toRat := by
  rcases Nat.eq_zero_or_pos n with rfl | hpos
  · -- Zero comes back, and no other decimal has its value.
    have hzero : d.toRat = 0 := by rw [hd]; cases negative <;> simp [Sign.value, Sign.ofNegative]
    refine iff_of_true ?_ fun k p hk hvalue => ?_
    · obtain ⟨a, ha, hvalue⟩ := exists_read_nearest_zero negative e
      exact ⟨a, ha, Decimal.sameValue_iff.2 (hvalue.trans hzero.symm)⟩
    · rw [hzero, abs_zero, eq_comm, mul_eq_zero, or_iff_left (ten_zpow_pos p).ne'] at hvalue
      obtain rfl : k = 0 := by exact_mod_cast hvalue
      exact absurd (dvd_zero 10) hk
  · obtain ⟨t, k, hk, rfl⟩ := Nat.exists_eq_pow_mul_and_not_dvd hpos.ne' 10 (by decide)
    have hvalue : ((10 ^ t * k : ℕ) : ℚ) * 10 ^ e = k * 10 ^ (t + e) := by
      rw [zpow_add₀ (by norm_num), zpow_natCast]
      push_cast
      ring
    rw [hvalue] at hd
    rw [nearest_congr hvalue, read_nearest_iff_isShortest hk hd]
    constructor
    · intro h l p hl habs
      rw [hd, abs_value_mul_zpow] at habs
      rcases le_total (t + e) p with hle | hle
      · obtain ⟨rfl, rfl⟩ := eq_of_mul_zpow_eq hk hle habs
        exact h
      · obtain ⟨rfl, rfl⟩ := eq_of_mul_zpow_eq hl hle habs.symm
        exact h
    · intro h
      exact h k (t + e) hk (by rw [hd, abs_value_mul_zpow])

end Binary64

end Passbook
