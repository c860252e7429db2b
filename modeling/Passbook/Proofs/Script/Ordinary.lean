import Passbook.Proofs.Binary64.FifteenDigits
import Passbook.Proofs.Script.Amount
import Passbook.Proofs.Script.Columns

/-!
# Ordinary amounts

Most amounts are written as a sign and a few digits, perhaps with a point between
them. Without a point, such a text is an integer; with one, it goes through a
number in 64 bits and comes back, since it has at most fifteen digits.

* `Numeral`: such texts, and the numbers that they stand for;
* `Numeral.exists_amount`: up to fifteen digits, the amount is that number;
* `ordinary_amounts_survive`: so it is in the rows of a script.
-/

namespace Passbook

open Decimal (Sign)

/-- A sign and digits, perhaps with a point before, between or after them. -/
structure Numeral where
  sign : Sign
  /-- The digits before the point, or all digits. -/
  whole : List Char
  /-- The digits after the point, if there is one. -/
  fraction : Option (List Char)
  isDigits_whole : IsDigits whole
  isDigits_fraction : IsDigits (fraction.getD [])
  digits_ne_nil : whole ++ fraction.getD [] ≠ []

namespace Numeral

/-- All digits. -/
def digits (a : Numeral) : List Char := a.whole ++ a.fraction.getD []

/-- How many digits stand after the point. -/
def places (a : Numeral) : ℕ := (a.fraction.getD []).length

/-- The text of a numeral. -/
def chars (a : Numeral) : List Char :=
  a.sign.chars ++ a.whole ++ (a.fraction.map ('.' :: ·)).getD []

/-- The number that the digits stand for without the point. -/
def mantissa (a : Numeral) : ℕ := Nat.ofDigitChars 10 a.digits 0

/-- The number that a numeral stands for. -/
def value (a : Numeral) : ℚ := a.sign.value (a.mantissa / 10 ^ a.places)

variable {a : Numeral}

theorem isDigits (a : Numeral) : IsDigits a.digits := a.isDigits_whole.append a.isDigits_fraction

theorem places_le (a : Numeral) : a.places ≤ a.digits.length := by
  rw [places, digits, List.length_append]
  exact Nat.le_add_left ..

theorem mantissa_lt (h : a.digits.length ≤ 15) : a.mantissa < 10 ^ 15 :=
  calc a.mantissa < (0 + 1) * 10 ^ a.digits.length := ofDigitChars_lt a.isDigits 0
    _ = 10 ^ a.digits.length := by rw [Nat.zero_add, Nat.one_mul]
    _ ≤ 10 ^ 15 := Nat.pow_le_pow_right (by decide) h

theorem value_eq (a : Numeral) : a.value = a.sign.value (a.mantissa * 10 ^ (-(a.places : ℤ))) := by
  rw [value, zpow_neg, zpow_natCast]
  rfl

theorem abs_value (a : Numeral) : |a.value| = a.mantissa * 10 ^ (-(a.places : ℤ)) := by
  rw [value_eq, Binary64.abs_value_mul_zpow]

theorem chars_of_none (h : a.fraction = none) : a.chars = a.sign.chars ++ a.digits := by
  simp [chars, digits, h]

theorem chars_of_some {es : List Char} (h : a.fraction = some es) :
    a.chars = a.sign.chars ++ (a.whole ++ '.' :: es) ∧ a.digits = a.whole ++ es ∧
      a.places = es.length := by
  simp [chars, digits, places, h]

/-! ## Numerals as decimals -/

/-- Fifteen digits are read as the decimal that they stand for. -/
theorem exists_decimal (h : a.digits.length ≤ 15) :
    ∃ d, Decimal.read a.chars = .ok d ∧ d.toRat = a.value := by
  have hroom : a.mantissa < mantissaBound := (mantissa_lt h).trans (by decide)
  have hscale : a.places ≤ maxScale := a.places_le.trans (h.trans (by decide))
  cases hfraction : a.fraction with
  | none =>
    obtain ⟨d, hd⟩ := Decimal.exists_read_digits a.sign a.isDigits a.digits_ne_nil hroom
    refine ⟨d, by rw [chars_of_none hfraction, hd], ?_⟩
    rw [Decimal.toRat_of_read_digits a.isDigits a.digits_ne_nil hd, value, places, hfraction]
    simp [mantissa]
  | some es =>
    obtain ⟨hchars, hdigits, hplaces⟩ := chars_of_some hfraction
    have hes : IsDigits es := by simpa [hfraction] using a.isDigits_fraction
    -- The digits on both sides of the point are read into one mantissa.
    let v : Decimal := ⟨false, a.mantissa, a.places, hroom, hscale⟩
    have hv : Decimal.zero.Extends a.digits a.places v := ⟨rfl, rfl, (Nat.zero_add _).symm⟩
    have hread : Decimal.readDigits .start (a.whole ++ '.' :: es) = .ok v :=
      Decimal.readDigits_pointed a.isDigits_whole hes (hdigits ▸ a.digits_ne_nil)
        (hdigits ▸ hplaces ▸ hv)
    obtain ⟨c, cs, hcs, hc⟩ := a.isDigits_whole.exists_cons_point es
    refine ⟨a.sign.apply v, Decimal.read_of_readPlain ?_, ?_⟩
    · rw [hchars, hcs, Decimal.readPlain_sign a.sign hc, ← hcs, hread]
      rfl
    · rw [a.sign.toRat_apply, hv.toRat_eq]
      rfl

/-! ## Numerals as amounts -/

/-- Without a point, the text is an integer, and fifteen digits fit 64 bits. -/
theorem exists_integer (h : a.digits.length ≤ 15) (hfraction : a.fraction = none) :
    ∃ v : ℤ, Amount.integer? a.chars = some v ∧ -2 ^ 63 ≤ v ∧ v < 2 ^ 64 := by
  have hlt := mantissa_lt h
  obtain ⟨c, cs, hcs, hc⟩ := a.isDigits.exists_cons a.digits_ne_nil []
  rw [List.append_nil] at hcs
  rw [chars_of_none hfraction, hcs, Amount.integer?_sign a.sign hc, ← hcs, Amount.ofDigits?,
    if_pos ⟨a.digits_ne_nil, List.all_eq_true.2 a.isDigits⟩]
  refine ⟨_, rfl, ?_⟩
  rw [← mantissa]
  split_ifs <;> omega

/-- With a point, it is the number nearest to what it stands for. -/
theorem ofChars?_chars_of_some {es : List Char} (hfraction : a.fraction = some es) :
    Amount.integer? a.chars = none ∧ Binary64.ofChars? a.chars =
      some (.nearest a.sign.isMinus a.mantissa (-(a.places : ℤ))) := by
  obtain ⟨hchars, hdigits, hplaces⟩ := chars_of_some hfraction
  have hes : IsDigits es := by simpa [hfraction] using a.isDigits_fraction
  obtain ⟨c, cs, hcs, hc⟩ := a.isDigits_whole.exists_cons_point es
  constructor
  · rw [hchars, hcs, Amount.integer?_sign a.sign hc, ← hcs, Amount.ofDigits?, if_neg]
    rintro ⟨-, hall⟩
    exact absurd (List.all_eq_true.1 hall '.' (by simp)) (by decide)
  · rw [hchars, hcs, Binary64.ofChars?_sign a.sign hc, ← hcs,
      Binary64.ofDigits?_pointed a.isDigits_whole hes (hdigits ▸ a.digits_ne_nil), mantissa,
      hdigits, hplaces]

/-- Up to fifteen digits, the amount is what the numeral stands for. -/
theorem exists_amount (h : a.digits.length ≤ 15) :
    ∃ d, Amount.read a.chars = .ok d ∧ d.toRat = a.value := by
  obtain ⟨d, hd, hvalue⟩ := exists_decimal h
  have hkeeps : Amount.Keeps a.chars d := by
    cases hfraction : a.fraction with
    | none =>
      obtain ⟨v, hv, hrange⟩ := exists_integer h hfraction
      exact (Amount.keeps_integer_iff hd hv).2 hrange
    | some es =>
      obtain ⟨hinteger, hnumber⟩ := ofChars?_chars_of_some hfraction
      refine (Amount.keeps_nearest_iff hd hinteger hnumber ?_).2 ?_
      · rw [hvalue, value_eq, Sign.value_ofNegative_isMinus]
      · rw [hvalue]
        exact Binary64.survives_of_lt (mantissa_lt h) (a.places_le.trans (h.trans (by decide)))
          a.abs_value
  obtain ⟨b, hb, hsame⟩ := hkeeps
  exact ⟨b, hb, (Decimal.sameValue_iff.1 hsame).trans hvalue⟩

end Numeral

namespace Script

/-- Below the columns `type` and `amount`, a row with a known kind and an amount of at
    most fifteen digits is an operation of this kind, with the amount that is
    written. -/
theorem ordinary_amounts_survive {s : Source} {header r : Record} {records : List Record} {n : ℕ}
    {spelling : Spelling} {a : Numeral} {surplus : List (List Char)}
    (hread : s.read.records = header :: records) (hr : records[n]? = some r)
    (hheader : texts? header.fields = some [Column.kind.name.toList, Column.amount.name.toList])
    (hrow : texts? r.fields = some (spelling.word :: a.chars :: surplus))
    (hdigits : a.digits.length ≤ 15) :
    ∃ row d, (rows s)[n]? = some row ∧ row.outcome = .ok ⟨spelling.kind, d⟩ ∧
      d.toRat = a.value := by
  obtain ⟨d, hd, hvalue⟩ := Numeral.exists_amount hdigits
  refine ⟨_, d, getElem?_rows hread hr, (outcome_eq_ok_iff_accepts hheader hrow).2 ?_, hvalue⟩
  exact accepts_iff.2 ⟨by simp, ⟨spelling, rfl, rfl⟩, ⟨a.chars, rfl, hd⟩⟩

/-- Fifteen digits after a point and a sign, and no number in 64 bits is their value. -/
theorem ordinary_amounts_survive_point_first :
    let s : Source := ⟨Utf8.encode "type,amount\nwithdraw, -.900719925474099 ,x\n".toList, none⟩
    let header : Record := ⟨⟨0, 1, 0⟩, ["type", "amount"].map (Utf8.encode ·.toList)⟩
    let r : Record :=
      ⟨⟨12, 2, 1⟩, ["withdraw", " -.900719925474099 ", "x"].map (Utf8.encode ·.toList)⟩
    let a : Numeral :=
      ⟨.minus, [], some "900719925474099".toList, nofun, by decide +kernel, by decide⟩
    s.read.records = [header, r] ∧
      texts? header.fields = some [Column.kind.name.toList, Column.amount.name.toList] ∧
      texts? r.fields = some [Spelling.withdraw.word, a.chars, ['x']] ∧
      a.value = -900719925474099 / 10 ^ 15 ∧
      ∃ row d, (rows s)[0]? = some row ∧ row.outcome = .ok ⟨.withdrawal, d⟩ ∧
        d.toRat = a.value := by
  intro s header r a
  have hread : s.read.records = [header, r] := by decide +kernel
  have hheader : texts? header.fields =
      some [Column.kind.name.toList, Column.amount.name.toList] := by decide +kernel
  have hrow : texts? r.fields = some [Spelling.withdraw.word, a.chars, ['x']] := by decide +kernel
  have hmantissa : a.mantissa = 900719925474099 := by decide +kernel
  have hplaces : a.places = 15 := by decide +kernel
  refine ⟨hread, hheader, hrow, ?_,
    ordinary_amounts_survive hread rfl hheader hrow (by decide +kernel)⟩
  rw [Numeral.value, hmantissa, hplaces]
  norm_num [a, Sign.value]

end Script

end Passbook
