import Passbook.Proofs.Binary64.Numeral
import Passbook.Proofs.Script.Row

/-!
# What the amount of a row says

A text that is a decimal may stand in a script as the amount of a row, but the
type of the amount is inferred first, and then the text goes one of three ways:
as an integer, as a number in 64 bits, or as it is. The way decides when the
amount has the value of the decimal (`Row.Says`).

* `Amount.keeps_integer_iff`: integers keep their value up to 64 bits, and are
  refused beyond;
* `Amount.keeps_nearest_iff`: what is read as the number nearest to it keeps its
  value if it is the shortest decimal of that number;
* `Amount.keeps_of_no_number`: all other texts keep their value;
* `amountRule_of_bears`: the same for the rows of a script, and for decimals that
  were written by `Decimal.chars`.
-/

namespace Passbook

open Decimal (Sign)

namespace Amount

variable {cs ds : List Char} {v : ℤ} {d : Decimal}

/-! ## Texts -/

/-- The amount that a text stands for has the value of `d`. -/
def Keeps (cs : List Char) (d : Decimal) : Prop := ∃ a, read cs = .ok a ∧ a.SameValue d

/-- No decimal is a truth value. -/
theorem not_truthValue (hd : Decimal.read cs = .ok d) :
    ¬(String.ofList cs = "true" ∨ String.ofList cs = "false") := by
  rintro (hword | hword) <;> rw [← String.toList_ofList (l := cs), hword] at hd <;> cases hd

/-! ## Integers -/

/-- The integer of digits after a sign. -/
def ofDigits? (s : Sign) (ds : List Char) : Option ℤ :=
  if ds ≠ [] ∧ ds.all Char.isDigit then
    some (if s.isMinus then -(Nat.ofDigitChars 10 ds 0 : ℤ) else Nat.ofDigitChars 10 ds 0)
  else none

/-- A text without a sign is the integer of its digits. -/
theorem integer?_none (hminus : ∀ ds, cs ≠ '-' :: ds) (hplus : ∀ ds, cs ≠ '+' :: ds) :
    integer? cs = ofDigits? .none cs := by
  unfold integer?
  split
  next negative ds hcs =>
    split at hcs
    · exact absurd rfl (hminus _)
    · exact absurd rfl (hplus _)
    · obtain ⟨rfl, rfl⟩ := Prod.mk.inj hcs
      rfl

theorem exists_sign (cs : List Char) :
    ∃ (s : Sign) (ds : List Char), cs = s.chars ++ ds ∧ integer? cs = ofDigits? s ds := by
  by_cases hminus : ∃ ds, cs = '-' :: ds
  · obtain ⟨ds, rfl⟩ := hminus
    exact ⟨.minus, ds, rfl, rfl⟩
  by_cases hplus : ∃ ds, cs = '+' :: ds
  · obtain ⟨ds, rfl⟩ := hplus
    exact ⟨.plus, ds, rfl, rfl⟩
  exact ⟨.none, cs, rfl, integer?_none (not_exists.1 hminus) (not_exists.1 hplus)⟩

theorem integer?_sign (s : Sign) {c : Char} (hc : StartsNumber c) :
    integer? (s.chars ++ c :: cs) = ofDigits? s (c :: cs) := by
  cases s with
  | none =>
    obtain ⟨hplus, hminus⟩ := hc.ne_sign
    exact integer?_none (fun _ h => hminus (List.cons.inj h).1) fun _ h =>
      hplus (List.cons.inj h).1
  | plus => rfl
  | minus => rfl

theorem toRat_of_integer? (h : integer? cs = some v) (hd : Decimal.read cs = .ok d) :
    d.toRat = v := by
  obtain ⟨s, ds, rfl, heq⟩ := exists_sign cs
  rw [heq, ofDigits?] at h
  split_ifs at h with hds
  all_goals
    obtain rfl := Option.some.inj h
    rw [Decimal.toRat_of_read_digits (List.all_eq_true.1 hds.2) hds.1 hd]
    cases s <;> simp_all [Sign.value, Sign.isMinus]

theorem toRat_of_ofInteger? {a : Decimal} (h : ofInteger? v = some a) : a.toRat = v := by
  rw [ofInteger?] at h
  split_ifs at h
  obtain rfl := Option.some.inj h
  have hsigned : (if decide (v < 0) = true then -(v.natAbs : ℤ) else v.natAbs) = v := by
    simp only [decide_eq_true_eq]
    split_ifs <;> omega
  rw [Decimal.toRat_eq, Decimal.signed, pow_zero, div_one, hsigned]

theorem ofInteger?_isSome_iff : (ofInteger? v).isSome ↔ -2 ^ 63 ≤ v ∧ v < 2 ^ 64 := by
  rw [ofInteger?]
  split_ifs with h <;> simpa using h

/-- No decimal is wider than 128 bits. -/
theorem isWide_of_toRat (h : d.toRat = v) : isWide v = true := by
  have habs := d.abs_toRat_le
  rw [h, ← Int.cast_abs] at habs
  have hle : |v| ≤ (mantissaBound : ℤ) - 1 := by exact_mod_cast habs
  rw [abs_le] at hle
  simp only [isWide, Bool.and_eq_true, decide_eq_true_eq]
  unfold mantissaBound at hle
  omega

/-- An integer keeps its value up to 64 bits, and is refused beyond. -/
theorem keeps_integer_iff (hd : Decimal.read cs = .ok d) (h : integer? cs = some v) :
    Keeps cs d ↔ -2 ^ 63 ≤ v ∧ v < 2 ^ 64 := by
  have hvalue := toRat_of_integer? h hd
  rw [Keeps, read, if_neg (not_truthValue hd), h, ← ofInteger?_isSome_iff]
  cases ha : ofInteger? v with
  | some a =>
    refine iff_of_true ⟨a, ?_, ?_⟩ rfl
    · simp only [ha]
    · rw [Decimal.sameValue_iff, toRat_of_ofInteger? ha, hvalue]
  | none =>
    -- The mantissa has 96 bits, so an integer beyond 64 bits is one of 128.
    refine iff_of_false ?_ Bool.false_ne_true
    rintro ⟨a, hread, -⟩
    simp only [ha, isWide_of_toRat hvalue, if_true] at hread
    cases hread

/-! ## Numbers and other texts -/

theorem read_of_no_integer (hd : Decimal.read cs = .ok d) (h : integer? cs = none) :
    read cs = ofText cs := by
  rw [read, if_neg (not_truthValue hd), h]

theorem keeps_number_iff {x : Binary64} (hd : Decimal.read cs = .ok d) (h : integer? cs = none)
    (hx : Binary64.ofChars? cs = some x) :
    Keeps cs d ↔ ∃ a, Decimal.read x.chars = .ok a ∧ a.SameValue d := by
  rw [Keeps, read_of_no_integer hd h, ofText, hx]
  simp only [ofNumber]
  cases Decimal.read x.chars <;> simp

theorem keeps_of_no_number (hd : Decimal.read cs = .ok d) (h : integer? cs = none)
    (hx : Binary64.ofChars? cs = none) : Keeps cs d := by
  refine ⟨d, ?_, rfl⟩
  rw [read_of_no_integer hd h, ofText, hx]
  simp only [hd]

/-! ## Written decimals -/

/-- A decimal that is written without a point is an integer. -/
theorem integer?_chars_of_scale_eq_zero (hscale : d.scale = 0) :
    integer? d.chars = some d.signed := by
  have hdigits := isDigits_toDigits (d.mantissa / 10 ^ d.scale)
  obtain ⟨c, cs, hcs, hc⟩ := hdigits.exists_cons Nat.toDigits_ne_nil []
  rw [d.chars_eq, pointed, if_pos hscale, hcs, integer?_sign _ hc, ← hcs, List.append_nil,
    ofDigits?, if_pos ⟨Nat.toDigits_ne_nil, List.all_eq_true.2 hdigits⟩,
    Nat.ofDigitChars_ten_toDigits, hscale, pow_zero, Nat.div_one, Sign.isMinus_ofNegative,
    Decimal.signed]

/-- A decimal that is written with a point is no integer. -/
theorem integer?_chars_of_scale_ne_zero (hscale : d.scale ≠ 0) : integer? d.chars = none := by
  have hdigits := isDigits_toDigits (d.mantissa / 10 ^ d.scale)
  obtain ⟨c, cs, hcs, hc⟩ := hdigits.exists_cons Nat.toDigits_ne_nil
    ('.' :: lastDigits d.scale d.mantissa)
  rw [d.chars_eq, pointed, if_neg hscale, hcs, integer?_sign _ hc, ← hcs, ofDigits?, if_neg]
  rintro ⟨-, hall⟩
  exact absurd (List.all_eq_true.1 hall '.' (by simp)) (by decide)

/-- A text that is read as the number nearest to it keeps its value exactly if the
    value survives. -/
theorem keeps_nearest_iff {negative : Bool} {n : ℕ} {e : ℤ} (hd : Decimal.read cs = .ok d)
    (h : integer? cs = none) (hx : Binary64.ofChars? cs = some (.nearest negative n e))
    (hvalue : d.toRat = (Sign.ofNegative negative).value (n * 10 ^ e)) :
    Keeps cs d ↔ Binary64.Survives d.toRat := by
  rw [keeps_number_iff hd h hx, Binary64.read_nearest_iff hvalue]

/-- When a written decimal keeps its value. -/
theorem keeps_chars_iff (c : Decimal) (hd : Decimal.read c.chars = .ok d) :
    Keeps c.chars d ↔
      if c.scale = 0 then -2 ^ 63 ≤ c.signed ∧ c.signed < 2 ^ 64 else Binary64.Survives c.toRat := by
  have hvalue : d.toRat = c.toRat := by
    obtain ⟨b, hb, hvalue⟩ := c.read_chars
    rwa [Except.ok.inj (hd.symm.trans hb)]
  split_ifs with hscale
  · -- Without a point, the text is an integer.
    exact keeps_integer_iff hd (integer?_chars_of_scale_eq_zero hscale)
  · rw [← hvalue]
    refine keeps_nearest_iff hd (integer?_chars_of_scale_ne_zero hscale)
      (Binary64.ofChars?_chars c hscale) ?_
    rw [hvalue, c.toRat_eq_value, zpow_neg, zpow_natCast]
    rfl

end Amount

namespace Script

variable {k : Kind} {text : List Char} {d : Decimal}

/-- The row is an operation of the kind `k`, with an amount of the value of `d`. -/
def Row.Says (row : Row) (k : Kind) (d : Decimal) : Prop :=
  ∃ a, row.outcome = .ok ⟨k, a⟩ ∧ a.SameValue d

/-- What a row says whose amount is a text that is read as the decimal `d`. -/
structure AmountRule (row : Row) (k : Kind) (text : List Char) (d : Decimal) : Prop where
  /-- Integers of 64 bits, signed or unsigned, keep their value. -/
  integer : ∀ v, Amount.integer? text = some v →
    (row.Says k d ↔ -2 ^ 63 ≤ v ∧ v < 2 ^ 64)
  /-- Numbers are written and read as decimals. -/
  number : ∀ x, Amount.integer? text = none → Binary64.ofChars? text = some x →
    (row.Says k d ↔ ∃ a, Decimal.read x.chars = .ok a ∧ a.SameValue d)
  /-- If the number is the one nearest to the decimal, the decimal has to be the
      shortest one of the number. -/
  nearest : ∀ negative n e, Amount.integer? text = none →
    Binary64.ofChars? text = some (.nearest negative n e) →
    d.toRat = (Sign.ofNegative negative).value (n * 10 ^ e) →
    (row.Says k d ↔ Binary64.Survives d.toRat)
  /-- Other texts keep their value. -/
  other : Amount.integer? text = none → Binary64.ofChars? text = none → row.Says k d
  /-- Decimals as they are written. -/
  written : ∀ c : Decimal, text = c.chars →
    d.SameValue c ∧ (row.Says k d ↔
      if c.scale = 0 then -2 ^ 63 ≤ c.signed ∧ c.signed < 2 ^ 64 else Binary64.Survives c.toRat)

theorem Bears.says_iff {names : Option (List (List Char))} {r : Record}
    (h : Bears names r k text) : (rowOf names r).Says k d ↔ Amount.Keeps text d := by
  rw [Row.Says, rowOf, operationOf_of_bears h, Amount.Keeps]
  cases Amount.read text <;> simp

/-- For every row of a script with a known kind and a text that is a decimal, this is
    when its amount has the value of the decimal. -/
theorem amountRule_of_bears {s : Source} {header r : Record} {records : List Record}
    (hread : s.read.records = header :: records) (hr : r ∈ records)
    (hbears : Bears (columnNames? header.fields) r k text) (hd : Decimal.read text = .ok d) :
    rowOf (columnNames? header.fields) r ∈ rows s ∧
      AmountRule (rowOf (columnNames? header.fields) r) k text d := by
  constructor
  · rw [rows, Reading.rows, hread]
    exact List.mem_append_left _ (List.mem_map_of_mem hr)
  · constructor
    case integer =>
      intro v hv
      rw [hbears.says_iff, Amount.keeps_integer_iff hd hv]
    case number =>
      intro x hv hx
      rw [hbears.says_iff, Amount.keeps_number_iff hd hv hx]
    case nearest =>
      intro negative n e hv hx hvalue
      rw [hbears.says_iff, Amount.keeps_nearest_iff hd hv hx hvalue]
    case other =>
      intro hv hx
      exact hbears.says_iff.2 (Amount.keeps_of_no_number hd hv hx)
    case written =>
      rintro c rfl
      refine ⟨?_, by rw [hbears.says_iff, Amount.keeps_chars_iff c hd]⟩
      obtain ⟨b, hb, hvalue⟩ := c.read_chars
      rwa [Decimal.sameValue_iff, Except.ok.inj (hd.symm.trans hb)]

/-- No number in 64 bits is one tenth, but the amount `0.1` is what it says, so its
    value survives. -/
theorem amountRule_of_bears_tenth :
    let tenth : Decimal := ⟨false, 1, 1, by decide, by decide⟩
    let header : Record := ⟨⟨0, 1, 0⟩, [Utf8.encode "type".toList, Utf8.encode "amount".toList]⟩
    let r : Record := ⟨⟨12, 2, 1⟩, [Utf8.encode "deposit".toList, Utf8.encode "0.1".toList]⟩
    (Source.read ⟨Utf8.encode "type,amount\ndeposit,0.1\n".toList, none⟩).records = [header, r] ∧
      Bears (columnNames? header.fields) r .deposit "0.1".toList ∧
      Decimal.read "0.1".toList = .ok tenth ∧
      AmountRule (rowOf (columnNames? header.fields) r) .deposit "0.1".toList tenth ∧
      Binary64.Survives tenth.toRat := by
  intro tenth header r
  have hread : (Source.read ⟨Utf8.encode "type,amount\ndeposit,0.1\n".toList, none⟩).records =
      [header, r] := by decide +kernel
  have hnames : columnNames? header.fields = some ["type".toList, "amount".toList] := by
    decide +kernel
  have hfields : fieldTexts r = .ok ["deposit".toList, "0.1".toList] := by decide +kernel
  have hbears : Bears (columnNames? header.fields) r .deposit "0.1".toList := by
    rw [hnames]
    exact .named hfields (Nat.le_refl 2) rfl (by decide) rfl
  have hd : Decimal.read "0.1".toList = .ok tenth := by decide +kernel
  have hrule := (amountRule_of_bears hread (List.mem_singleton.2 rfl) hbears hd).2
  have hsays : (rowOf (columnNames? header.fields) r).Says .deposit tenth :=
    hbears.says_iff.2 ⟨tenth, by decide +kernel, rfl⟩
  have hchars : "0.1".toList = tenth.chars := by decide +kernel
  exact ⟨hread, hbears, hd, hrule, (hrule.written tenth hchars).2.1 hsays⟩

/-- A row that says something has a verdict that does. -/
theorem Row.Says.verdict_eq {row : Row} (h : row.Says k d) :
    ∃ a, row.verdict = .ok ⟨k, a⟩ ∧ a.SameValue d := by
  obtain ⟨a, ha, hsame⟩ := h
  exact ⟨a, by rw [Row.verdict, ha]; rfl, hsame⟩

/-- Not every amount is what it says: the decimal `2 ^ 64` is refused, and
    `0.1234567890123456789` loses its last digits, so no row says one of them. -/
theorem exists_amounts_not_said : ∃ d e : Decimal,
    Decimal.read "18446744073709551616".toList = .ok d ∧
    Decimal.read "0.1234567890123456789".toList = .ok e ∧
    ∀ row ∈ rows ⟨Utf8.encode ("type,amount\ndeposit,18446744073709551616\n" ++
      "deposit,0.1234567890123456789\n").toList, none⟩,
      ¬row.Says .deposit d ∧ ¬row.Says .deposit e := by
  let d : Decimal := ⟨false, 18446744073709551616, 0, by decide, by decide⟩
  let e : Decimal := ⟨false, 1234567890123456789, 19, by decide, by decide⟩
  let rounded : Decimal := ⟨false, 12345678901234568, 17, by decide, by decide⟩
  have hverdicts : (rows ⟨Utf8.encode ("type,amount\ndeposit,18446744073709551616\n" ++
      "deposit,0.1234567890123456789\n").toList, none⟩).map Row.verdict =
      [.error (.malformed (.badAmount (.wideInteger 18446744073709551616))),
        .ok ⟨.deposit, rounded⟩] := by decide +kernel
  refine ⟨d, e, by decide +kernel, by decide +kernel, fun row hrow => ?_⟩
  have hsaid : ∀ c, row.Says .deposit c → rounded.SameValue c := by
    intro c hsays
    obtain ⟨a, ha, hsame⟩ := hsays.verdict_eq
    have hmem := List.mem_map_of_mem (f := Row.verdict) hrow
    rw [hverdicts, ha, List.mem_cons, List.mem_singleton] at hmem
    rcases hmem with hmem | hmem
    · cases hmem
    · obtain rfl : a = rounded := congrArg Operation.amount (Except.ok.inj hmem)
      exact hsame
  exact ⟨fun h => absurd (hsaid d h) (by decide), fun h => absurd (hsaid e h) (by decide)⟩

end Script

end Passbook
