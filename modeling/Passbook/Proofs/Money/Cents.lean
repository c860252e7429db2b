import Passbook.Proofs.Decimal.Reading
import Passbook.Proofs.Decimal.SameValue

/-!
# Money to the cent

What is shown of an amount is the nearest number of cents, with its sign, and the
even one of two that are equally near. It is written with two digits after the
point, even where a decimal has no room for them: zeros are put behind the number,
and whoever reads the text does not need room for zeros.

* `Money.isNearest_roundedCents`: the number of cents that an amount is rounded to;
* `Money.Written`: the texts that amounts are shown as, and what they are worth;
* `Money.exists_read_chars`: a text is read as the number that is written;
* `Money.cents_of_toRat`: a number of cents is not rounded again;
* `Money.shownAs_written`: all of it, for every amount.
-/

namespace Passbook.Money

variable {d e : Decimal}

/-! ## Rounding -/

/-- The number of cents that an amount is rounded to. -/
def roundedCents (d : Decimal) : ℤ := if d.negative then -(cents d : ℤ) else cents d

theorem roundsTo_cents (d : Decimal) : RoundsTo (d.mantissa / 10 ^ d.scale * 100) (cents d) := by
  have hround := roundsTo_roundHalfEven (n := d.mantissa * 10 ^ 2) (d := 10 ^ d.scale)
    (Nat.pow_pos (by decide))
  rw [← Decimal.roundedUnits_eq, ← cents] at hround
  convert hround using 1
  push_cast
  ring

/-- An amount is rounded to the nearest number of cents, half to even. -/
theorem isNearest_roundedCents (d : Decimal) : IsNearest (d.toRat * 100) (roundedCents d) := by
  have hcents := (roundsTo_cents d).isNearest
  rw [Decimal.toRat_eq, Decimal.signed, roundedCents]
  cases d.negative with
  | false => simpa using hcents
  | true => simpa [neg_div] using hcents.neg

/-! ## Texts -/

/-- An amount as it is written: a minus sign or none, digits without superfluous
    zeros in front, a point and two digits. -/
structure Written where
  minus : Bool
  /-- The digits before the point. -/
  whole : List Char
  /-- The digits after the point. -/
  places : List Char
  isDigits_whole : IsDigits whole
  whole_ne_nil : whole ≠ []
  eq_zero_of_head : whole.head? = some '0' → whole = ['0']
  isDigits_places : IsDigits places
  length_places : places.length = 2

namespace Written

/-- The characters of a written amount. -/
def chars (w : Written) : List Char :=
  (Decimal.Sign.ofNegative w.minus).chars ++ (w.whole ++ '.' :: w.places)

/-- The number that is written. -/
def value (w : Written) : ℚ :=
  (Decimal.Sign.ofNegative w.minus).value
    (Nat.ofDigitChars 10 w.whole 0 + Nat.ofDigitChars 10 w.places 0 / 100)

end Written

/-- An amount in its written form. -/
def written (d : Decimal) : Written where
  minus := showsMinus d
  whole := Nat.toDigits 10 (cents d / 10 ^ 2)
  places := lastDigits 2 (cents d)
  isDigits_whole := isDigits_toDigits _
  whole_ne_nil := Nat.toDigits_ne_nil
  eq_zero_of_head hhead := by
    rcases Nat.eq_zero_or_pos (cents d / 10 ^ 2) with hzero | hpos
    · rw [hzero]
      rfl
    · exact absurd hhead (head?_toDigits hpos.ne')
  isDigits_places := isDigits_lastDigits 2 _
  length_places := length_lastDigits 2 _

theorem chars_eq_sign (d : Decimal) :
    chars d = (Decimal.Sign.ofNegative (showsMinus d)).chars ++ pointed (cents d) 2 := by
  rw [chars, Decimal.Sign.ofNegative]
  cases showsMinus d <;> rfl

theorem chars_written (d : Decimal) : (written d).chars = chars d := by
  rw [chars_eq_sign]
  rfl

/-- With its sign, the number of cents is the one that the amount is rounded to;
    only a zero may do without the sign. -/
theorem value_showsMinus (d : Decimal) :
    (Decimal.Sign.ofNegative (showsMinus d)).value (cents d / 100) = roundedCents d / 100 := by
  rw [roundedCents, showsMinus]
  rcases Nat.eq_zero_or_pos (cents d) with hzero | hpos
  · cases d.negative && (cents d != 0 || d.mantissa == 0) <;>
      simp [hzero, Decimal.Sign.ofNegative, Decimal.Sign.value]
  · cases d.negative <;> simp [hpos.ne', Decimal.Sign.ofNegative, Decimal.Sign.value, neg_div]

theorem value_written (d : Decimal) : (written d).value = roundedCents d / 100 := by
  have hcents : cents d / 10 ^ 2 * 100 + cents d % 10 ^ 2 = cents d := Nat.div_add_mod' ..
  rw [← value_showsMinus, Written.value]
  congr 1
  simp only [written, Nat.ofDigitChars_ten_toDigits, ofDigitChars_lastDigits, Nat.zero_mul,
    Nat.zero_add]
  rw [eq_div_iff (by norm_num), add_mul, div_mul_cancel₀ _ (by norm_num)]
  exact_mod_cast hcents

/-! ## Reading -/

/-- What is written is a decimal with zeros behind it. -/
theorem exists_mantissa_eq_cents (d : Decimal) : ∃ (r : Decimal) (k : ℕ),
    r.negative = false ∧ r.mantissa * 10 ^ k = cents d ∧ r.scale + k = 2 := by
  rcases le_or_gt d.scale 2 with hle | hgt
  · refine ⟨{ d with negative := false }, 2 - d.scale, rfl, ?_, Nat.add_sub_cancel' hle⟩
    rw [cents, Decimal.roundedUnits, if_pos hle]
  · have hcents : cents d = roundHalfEven d.mantissa (10 ^ (d.scale - 2)) := by
      rw [cents, Decimal.roundedUnits, if_neg hgt.not_ge]
    have hlt : cents d < mantissaBound :=
      hcents ▸ (roundHalfEven_le (Nat.pow_pos (by decide))).trans_lt d.mantissa_lt
    exact ⟨⟨false, cents d, 2, hlt, by decide⟩, 0, rfl, Nat.mul_one _, rfl⟩

/-- A text is read as the number that is written. A zero loses its sign. -/
theorem exists_read_chars (d : Decimal) : ∃ v : Decimal,
    Decimal.read (chars d) = .ok ((Decimal.Sign.ofNegative (showsMinus d)).apply v) ∧
      v.negative = false ∧ v.toRat = cents d / 100 := by
  obtain ⟨r, k, hneg, hcents, hk⟩ := exists_mantissa_eq_cents d
  obtain ⟨v, hread, hvneg, hval⟩ := Decimal.exists_read_pointed_mul_pow
    (.ofNegative (showsMinus d)) hneg (k := k) (by omega)
  rw [hcents, hk, ← chars_eq_sign] at hread
  refine ⟨v, hread, hvneg, ?_⟩
  have hscale : (10 : ℚ) ^ r.scale * 10 ^ k = 100 := by
    rw [← pow_add, hk]
    norm_num
  rw [hval, Decimal.toRat_eq, Decimal.signed, hneg, ← hcents, ← hscale]
  push_cast
  rw [mul_div_mul_right _ _ (by positivity)]

/-- A text is read as the amount, rounded to cents. -/
theorem exists_read_eq_roundedCents (d : Decimal) :
    ∃ e : Decimal, Decimal.read (chars d) = .ok e ∧ e.toRat = roundedCents d / 100 := by
  obtain ⟨v, hread, -, hval⟩ := exists_read_chars d
  refine ⟨_, hread, ?_⟩
  rw [Decimal.Sign.toRat_apply, hval, value_showsMinus]

/-! ## Writing again -/

/-- A number of cents is not rounded. -/
theorem cents_of_toRat {n : ℕ} (h : |e.toRat| = n / 100) : cents e = n := by
  have hunits : e.mantissa * 10 ^ 2 = n * 10 ^ e.scale := by
    have hsize := e.abs_toRat_mul_pow
    rw [h] at hsize
    have hrat : (e.mantissa : ℚ) * 10 ^ 2 = n * 10 ^ e.scale := by
      rw [← hsize]
      ring
    exact_mod_cast hrat
  rw [cents, Decimal.roundedUnits_eq, hunits, roundHalfEven_mul_self _ (Nat.pow_pos (by decide))]

/-- What has been read is written as before, but a zero has no minus sign any more. -/
theorem chars_apply {v : Decimal} (hneg : v.negative = false) (hval : v.toRat = cents d / 100) :
    chars ((Decimal.Sign.ofNegative (showsMinus d)).apply v) =
      (Decimal.Sign.ofNegative (showsMinus d && cents d != 0)).chars ++ pointed (cents d) 2 := by
  have hcents : cents ((Decimal.Sign.ofNegative (showsMinus d)).apply v) = cents d := by
    refine cents_of_toRat ?_
    rw [Decimal.Sign.toRat_apply, Decimal.Sign.abs_value, hval, abs_of_nonneg (by positivity)]
  have hzero : v.IsZero ↔ cents d = 0 := by
    rw [Decimal.isZero_iff_toRat, hval, div_eq_zero_iff, or_iff_left (by norm_num), Nat.cast_eq_zero]
  have hminus : showsMinus ((Decimal.Sign.ofNegative (showsMinus d)).apply v) =
      (showsMinus d && cents d != 0) := by
    rw [showsMinus, hcents]
    cases showsMinus d with
    | false => simp [Decimal.Sign.ofNegative, Decimal.Sign.apply, hneg]
    | true =>
      by_cases hd : cents d = 0
      · simp [Decimal.Sign.ofNegative, Decimal.Sign.apply, Decimal.neg, hzero.2 hd, hneg, hd]
      · simp [Decimal.Sign.ofNegative, Decimal.Sign.apply, Decimal.neg, mt hzero.1 hd, hneg, hd]
  rw [chars_eq_sign, hminus, hcents]

/-! ## Amounts as they are shown -/

/-- The amount is shown as `w`. -/
structure ShownAs (d : Decimal) (w : Written) : Prop where
  /-- Whatever the symbol is, the text is the symbol and what is written. -/
  text : ∀ symbol, Money.text symbol d = symbol ++ String.ofList w.chars
  /-- A minus sign is only written of an amount that has one. -/
  minus : w.minus = true → d.negative = true
  /-- What is written is the nearest number of cents, half to even. -/
  nearest : ∃ u : ℤ, w.value = u / 100 ∧ IsNearest (d.toRat * 100) u
  /-- The text can be read. What is read has the value that is written, and it is
      written in the same way, except for the sign of a zero. -/
  reread : ∃ e, Decimal.ofString (Money.text "" d) = .ok e ∧ e.toRat = w.value ∧
    ∀ symbol, Money.text symbol e = Money.text symbol d ∨
      Money.text symbol e = symbol ++ "0.00" ∧ Money.text symbol d = symbol ++ "-0.00"

/-- Every amount is shown as the nearest number of cents, and can be read back. -/
theorem shownAs_written (d : Decimal) : ShownAs d (written d) := by
  constructor
  case text =>
    intro symbol
    rw [Money.text, chars_written]
  case minus =>
    intro hminus
    have hshows : showsMinus d = true := hminus
    rw [showsMinus, Bool.and_eq_true] at hshows
    exact hshows.1
  case nearest => exact ⟨roundedCents d, value_written d, isNearest_roundedCents d⟩
  case reread =>
    obtain ⟨v, hread, hneg, hval⟩ := exists_read_chars d
    have hagain := chars_apply hneg hval
    refine ⟨(Decimal.Sign.ofNegative (showsMinus d)).apply v, ?_, ?_, fun symbol => ?_⟩
    · rw [Decimal.ofString, Money.text]
      simpa using hread
    · rw [Decimal.Sign.toRat_apply, hval, value_showsMinus, value_written]
    · rw [Money.text, Money.text, hagain, chars_eq_sign d]
      by_cases hzero : cents d = 0
      · cases showsMinus d with
        | false => exact .inl rfl
        | true =>
          rw [hzero]
          exact .inr ⟨rfl, rfl⟩
      · rw [bne_iff_ne.2 hzero, Bool.and_true]
        exact .inl rfl

-- The largest decimal is shown with two zeros that it has no room for.
example : text "$" ⟨true, 79228162514264337593543950335, 0, by decide, by decide⟩ =
    "$-79228162514264337593543950335.00" := by
  decide +kernel

end Passbook.Money
