import Passbook.Decimal.Printer
import Passbook.Decimal.Reader
import Passbook.Proofs.Decimal.Value
import Passbook.Proofs.Text.Digits

/-!
# Reading what is written with digits

Digits are read as the number they stand for, as long as the mantissa has room
for them and, after the point, the scale.

* `readDigits_append`: what digits do to the number that has been read so far;
* `toRat_of_read_digits`, `exists_read_digits`: a text of digits and a sign is read
  as the number that it stands for, if there is room for it;
* `read_pointed`: a number written with a point is read back, and with zeros behind
  it (`exists_read_pointed_mul_pow`) a number of its value, even if there is no room
  for the zeros;
* `read_chars`: so is every decimal, but for the sign of a zero.
-/

namespace Passbook.Decimal

variable {ds cs : List Char} {d u v : Decimal} {p : Progress} {n : ℕ}

/-! ## Digits -/

/-- The number `v` is `d` with the digits `ds` after it, of which `n` stand after
    the point. -/
structure Extends (d : Decimal) (ds : List Char) (n : ℕ) (v : Decimal) : Prop where
  negative : v.negative = d.negative
  mantissa : v.mantissa = Nat.ofDigitChars 10 ds d.mantissa
  scale : v.scale = d.scale + n

theorem extends_nil : d.Extends [] 0 v ↔ v = d := by
  constructor
  · rintro ⟨hneg, hmantissa, hscale⟩
    cases d
    cases v
    simp_all
  · rintro rfl
    exact ⟨rfl, Nat.ofDigitChars_nil.symm, rfl⟩

/-- A number is extended by its first digit, and then by the others. -/
theorem extends_cons {c : Char} {afterPoint : Bool} :
    d.Extends (c :: ds) (afterPoint.toNat + n) v ↔
      ∃ u, d.extend? afterPoint (c.toNat - '0'.toNat) = some u ∧ u.Extends ds n v := by
  constructor
  · rintro ⟨hneg, hmantissa, hscale⟩
    rw [Nat.ofDigitChars_cons, Nat.mul_comm] at hmantissa
    have hlt : d.mantissa * 10 + (c.toNat - '0'.toNat) < mantissaBound :=
      (le_ofDigitChars ds _).trans_lt (hmantissa ▸ v.mantissa_lt)
    have hle : d.scale + afterPoint.toNat ≤ maxScale := by
      have := v.scale_le
      omega
    refine ⟨_, dif_pos ⟨hlt, hle⟩, hneg, hmantissa, ?_⟩
    rw [hscale, Nat.add_assoc]
  · rintro ⟨u, hu, hneg, hmantissa, hscale⟩
    rw [extend?] at hu
    split_ifs at hu
    obtain rfl := Option.some.inj hu
    refine ⟨hneg, ?_, ?_⟩
    · rw [Nat.ofDigitChars_cons, Nat.mul_comm]
      exact hmantissa
    · rw [hscale, Nat.add_assoc]

/-- How far reading has come after digits that extend the number to `v`. -/
def Progress.afterDigits (p : Progress) (ds : List Char) (v : Decimal) : Progress :=
  ⟨v, p.afterPoint, p.started || !ds.isEmpty⟩

/-- Digits are read while there is room for them. -/
theorem readDigits_append (hds : IsDigits ds)
    (hv : p.value.Extends ds (ds.length * p.afterPoint.toNat) v) :
    readDigits p (ds ++ cs) = readDigits (p.afterDigits ds v) cs := by
  induction ds generalizing p with
  | nil =>
    rw [List.length_nil, Nat.zero_mul, extends_nil] at hv
    simp [Progress.afterDigits, hv]
  | cons c ds ih =>
    rw [IsDigits, List.forall_mem_cons] at hds
    rw [List.length_cons, Nat.succ_mul, Nat.add_comm] at hv
    obtain ⟨u, hu, hv⟩ := extends_cons.1 hv
    rw [List.cons_append, readDigits, digitValue?_eq_some hds.1]
    simp only [hu]
    rw [ih hds.2 hv]
    simp [Progress.afterDigits]

/-- Before the point, digits are read only if there is room for them. -/
theorem exists_extends_of_readDigits (hds : IsDigits ds) (hp : p.afterPoint = false)
    (h : readDigits p (ds ++ cs) = .ok d) : ∃ v, p.value.Extends ds 0 v := by
  induction ds generalizing p with
  | nil => exact ⟨p.value, extends_nil.2 rfl⟩
  | cons c ds ih =>
    rw [IsDigits, List.forall_mem_cons] at hds
    rw [List.cons_append, readDigits, digitValue?_eq_some hds.1, hp] at h
    cases hu : p.value.extend? false (c.toNat - '0'.toNat) with
    | none =>
      -- Before the point, a digit without room is an error.
      simp only [hu] at h
      cases h
    | some u =>
      simp only [hu] at h
      obtain ⟨v, hv⟩ := @ih ⟨u, false, true⟩ hds.2 rfl h
      exact ⟨v, (@extends_cons _ _ _ 0 _ false).2 ⟨u, hu, hv⟩⟩

/-! ## Signs -/

/-- What can stand in front of a number. -/
inductive Sign
  | none
  | plus
  | minus
  deriving DecidableEq

namespace Sign

/-- The characters of a sign. -/
def chars : Sign → List Char
  | none => []
  | plus => ['+']
  | minus => ['-']

/-- The sign of numbers that are written with a minus sign or without a sign. -/
def ofNegative (negative : Bool) : Sign := if negative then minus else none

/-- Whether the sign is a minus sign. -/
def isMinus : Sign → Bool
  | minus => true
  | _ => false

/-- The number with the sign. -/
def apply : Sign → Decimal → Decimal
  | none, d => d
  | plus, d => d
  | minus, d => d.neg

/-- The value with the sign. -/
def value : Sign → ℚ → ℚ
  | none, x => x
  | plus, x => x
  | minus, x => -x

theorem isMinus_ofNegative (negative : Bool) : (ofNegative negative).isMinus = negative := by
  cases negative <;> rfl

theorem value_ofNegative_isMinus (s : Sign) (x : ℚ) :
    (ofNegative s.isMinus).value x = s.value x := by
  cases s <;> rfl

theorem toRat_apply (s : Sign) (d : Decimal) : (s.apply d).toRat = s.value d.toRat := by
  cases s
  case minus => exact d.toRat_neg
  all_goals rfl

theorem value_injective (s : Sign) : Function.Injective s.value := by
  cases s
  case minus => exact neg_injective
  all_goals exact Function.injective_id

theorem abs_value (s : Sign) (x : ℚ) : |s.value x| = |x| := by
  cases s
  case minus => exact abs_neg x
  all_goals rfl

end Sign

theorem chars_eq (d : Decimal) :
    d.chars = (Sign.ofNegative d.negative).chars ++ pointed d.mantissa d.scale := by
  rw [chars, Sign.ofNegative]
  cases d.negative <;> rfl

theorem toRat_eq_value (d : Decimal) :
    d.toRat = (Sign.ofNegative d.negative).value (d.mantissa / 10 ^ d.scale) := by
  rw [toRat_eq, signed, Sign.ofNegative]
  cases d.negative <;> simp [Sign.value, neg_div]

theorem readPlain_sign (s : Sign) {c : Char} (hc : StartsNumber c) :
    readPlain (s.chars ++ c :: cs) = (readDigits .start (c :: cs)).map s.apply := by
  cases s with
  | none =>
    obtain ⟨hplus, hminus⟩ := hc.ne_sign
    rw [Sign.chars, List.nil_append, readPlain]
    · cases readDigits .start (c :: cs) <;> rfl
    · nofun
    · exact fun _ h => hminus (List.cons.inj h).1
    · exact fun _ h => hplus (List.cons.inj h).1
  | plus =>
    change readDigits .start (c :: cs) = _
    cases readDigits .start (c :: cs) <;> rfl
  | minus => rfl

/-! ## Zeros at the end -/

theorem checkIgnored_zeros (k : ℕ) : checkIgnored (List.replicate k '0') = .ok () := by
  have hnone : (List.replicate k '0').find? (fun c => !(c.isDigit || c == '_')) = none := by
    rw [List.find?_eq_none]
    intro c hc
    rw [List.eq_of_mem_replicate hc]
    decide
  rw [checkIgnored, hnone]

/-- A zero after the point does not change the value. -/
theorem toRat_of_extend?_zero (h : d.extend? true 0 = some v) :
    v.negative = d.negative ∧ v.toRat = d.toRat := by
  rw [extend?] at h
  split_ifs at h
  obtain rfl := Option.some.inj h
  refine ⟨rfl, ?_⟩
  rw [toRat_eq_value, toRat_eq_value d]
  simp only [Nat.add_zero, Bool.toNat_true, pow_succ]
  push_cast
  rw [mul_div_mul_right _ _ (by norm_num)]

/-- Zeros after the point do not change the value, whether there is room for them
    or not. -/
theorem exists_readDigits_zeros (k : ℕ) (v : Decimal) :
    ∃ w : Decimal, readDigits ⟨v, true, true⟩ (List.replicate k '0') = .ok w ∧
      w.negative = v.negative ∧ w.toRat = v.toRat := by
  induction k generalizing v with
  | zero => exact ⟨v, rfl, rfl, rfl⟩
  | succ k ih =>
    rw [List.replicate_succ, readDigits, show digitValue? '0' = some 0 from rfl]
    cases hu : v.extend? true 0 with
    | none =>
      refine ⟨v, ?_, rfl, rfl⟩
      simp [finishRounded, roundBy, checkIgnored_zeros, hu, bind, Except.bind, pure, Except.pure]
    | some u =>
      obtain ⟨w, hw, hneg, hval⟩ := ih u
      obtain ⟨huneg, huval⟩ := toRat_of_extend?_zero hu
      refine ⟨w, ?_, hneg.trans huneg, hval.trans huval⟩
      simpa only [hu] using hw

/-! ## Texts -/

theorem read_of_readPlain (h : readPlain cs = .ok d) : read cs = .ok d := by
  rw [read, h]

/-- A text without an exponent mark is read as a plain numeral or not at all. -/
theorem read_eq_ok_iff (hcs : ∀ c ∈ cs, isExponentMark c = false) :
    read cs = .ok d ↔ readPlain cs = .ok d := by
  have hmark : cs.any isExponentMark = false := by simpa using hcs
  rw [read]
  cases readPlain cs with
  | ok e => rfl
  | error e => simp [hmark]

theorem isExponentMark_of_isDigit {c : Char} (hc : c.isDigit = true) :
    isExponentMark c = false := by
  rw [Bool.eq_false_iff]
  intro hmark
  rw [isExponentMark, Bool.or_eq_true, beq_iff_eq, beq_iff_eq] at hmark
  rcases hmark with rfl | rfl <;> exact absurd hc (by decide)

/-- The value of digits, of which `n` stand after the point. -/
theorem Extends.toRat_eq (h : zero.Extends ds n v) :
    v.toRat = (Nat.ofDigitChars 10 ds 0 : ℚ) / 10 ^ n := by
  obtain ⟨hneg, hmantissa, hscale⟩ := h
  have hsigned : v.signed = (v.mantissa : ℤ) := by simp [signed, hneg, zero]
  rw [Decimal.toRat_eq, hsigned, hmantissa, hscale]
  simp [zero]

theorem readDigits_digits (hds : IsDigits ds) (hne : ds ≠ []) :
    readDigits .start ds = .ok d ↔ zero.Extends ds 0 d := by
  have hread : ∀ {v : Decimal}, zero.Extends ds 0 v → readDigits .start ds = .ok v := by
    intro v hv
    have h := @readDigits_append ds [] v .start hds hv
    rw [List.append_nil] at h
    rw [h, readDigits]
    simp [Progress.afterDigits, hne]
  refine ⟨fun h => ?_, hread⟩
  obtain ⟨v, hv⟩ := @exists_extends_of_readDigits ds [] d .start hds rfl (by rwa [List.append_nil])
  rwa [Except.ok.inj (h.symm.trans (hread hv))]

/-- Digits on both sides of a point are read, if there is room for all of them, and
    then reading goes on after the point. -/
theorem readDigits_pointed_append {es : List Char} (hds : IsDigits ds) (hes : IsDigits es)
    (hne : ds ++ es ≠ []) (hv : zero.Extends (ds ++ es) es.length v) (cs : List Char) :
    readDigits .start (ds ++ '.' :: (es ++ cs)) = readDigits ⟨v, true, true⟩ cs := by
  obtain ⟨hneg, hmantissa, hscale⟩ := hv
  rw [Nat.ofDigitChars_append] at hmantissa
  -- The digits before the point make a number of their own.
  have hlt : Nat.ofDigitChars 10 ds 0 < mantissaBound :=
    (le_ofDigitChars es _).trans_lt (hmantissa ▸ v.mantissa_lt)
  let u : Decimal := ⟨false, Nat.ofDigitChars 10 ds 0, 0, hlt, Nat.zero_le _⟩
  have hu : Progress.start.value.Extends ds (ds.length * 0) u := ⟨rfl, rfl, rfl⟩
  have hv : u.Extends es (es.length * 1) v := ⟨hneg, hmantissa, by rw [hscale, Nat.mul_one]; rfl⟩
  have hstarted : (!ds.isEmpty || !es.isEmpty) = true := by
    cases ds with
    | nil => simpa using hne
    | cons c ds => rfl
  have hpoint : readDigits (Progress.start.afterDigits ds u) ('.' :: (es ++ cs)) =
      readDigits ⟨u, true, !ds.isEmpty⟩ (es ++ cs) := rfl
  rw [readDigits_append hds hu, hpoint, readDigits_append hes hv, Progress.afterDigits, hstarted]

/-- Digits on both sides of a point are read as one number, if there is room for
    all of them. -/
theorem readDigits_pointed {es : List Char} (hds : IsDigits ds) (hes : IsDigits es)
    (hne : ds ++ es ≠ []) (hv : zero.Extends (ds ++ es) es.length v) :
    readDigits .start (ds ++ '.' :: es) = .ok v := by
  have h := readDigits_pointed_append hds hes hne hv []
  rwa [List.append_nil] at h

/-- A number has the digits that it is written with. -/
theorem extends_digits (hd : d.negative = false) : zero.Extends
    (Nat.toDigits 10 (d.mantissa / 10 ^ d.scale) ++ lastDigits d.scale d.mantissa) d.scale d := by
  refine ⟨hd, ?_, (Nat.zero_add _).symm⟩
  rw [Nat.ofDigitChars_append, ofDigitChars_lastDigits]
  simp only [zero, Nat.ofDigitChars_ten_toDigits]
  exact (Nat.div_add_mod' ..).symm

/-- A number is read back from what it is written as, with a sign put before it. -/
theorem read_pointed (s : Sign) (hd : d.negative = false) :
    read (s.chars ++ pointed d.mantissa d.scale) = .ok (s.apply d) := by
  have hwhole := isDigits_toDigits (d.mantissa / 10 ^ d.scale)
  have hfraction := isDigits_lastDigits d.scale d.mantissa
  have hextends := extends_digits hd
  have hdigits : readDigits .start (pointed d.mantissa d.scale) = .ok d := by
    rw [pointed]
    split_ifs with hscale
    · rw [List.append_nil, readDigits_digits hwhole Nat.toDigits_ne_nil]
      simpa [hscale, lastDigits] using hextends
    · refine readDigits_pointed hwhole hfraction (by simp [Nat.toDigits_ne_nil]) ?_
      rwa [length_lastDigits]
  obtain ⟨c, cs, hcs, hc⟩ := hwhole.exists_cons Nat.toDigits_ne_nil
    (if d.scale = 0 then [] else '.' :: lastDigits d.scale d.mantissa)
  have hcs : pointed d.mantissa d.scale = c :: cs := hcs
  rw [hcs] at hdigits ⊢
  exact read_of_readPlain (by rw [readPlain_sign s hc, hdigits]; rfl)

/-- A number that is written with zeros behind it is read as a number of its
    value, with a sign put before it. -/
theorem exists_read_pointed_mul_pow (s : Sign) (hd : d.negative = false) {k : ℕ}
    (hk : d.scale + k ≠ 0) : ∃ v : Decimal,
      read (s.chars ++ pointed (d.mantissa * 10 ^ k) (d.scale + k)) = .ok (s.apply v) ∧
        v.negative = false ∧ v.toRat = d.toRat := by
  have hwhole := isDigits_toDigits (d.mantissa / 10 ^ d.scale)
  have hpointed : pointed (d.mantissa * 10 ^ k) (d.scale + k) =
      Nat.toDigits 10 (d.mantissa / 10 ^ d.scale) ++
        '.' :: (lastDigits d.scale d.mantissa ++ List.replicate k '0') := by
    rw [pointed, if_neg hk, lastDigits_mul_pow, pow_add,
      Nat.mul_div_mul_right _ _ (Nat.pow_pos (by decide))]
  obtain ⟨v, hread, hneg, hval⟩ := exists_readDigits_zeros k d
  rw [← readDigits_pointed_append hwhole (isDigits_lastDigits d.scale d.mantissa)
    (by simp [Nat.toDigits_ne_nil]) (by rw [length_lastDigits]; exact extends_digits hd),
    ← hpointed] at hread
  obtain ⟨c, cs, hcs, hc⟩ := hwhole.exists_cons_point
    (lastDigits d.scale d.mantissa ++ List.replicate k '0')
  rw [← hpointed] at hcs
  refine ⟨v, ?_, hneg.trans hd, hval⟩
  rw [hcs] at hread ⊢
  exact read_of_readPlain (by rw [readPlain_sign s hc, hread]; rfl)

/-- Every decimal is read back from its written form, but for the sign of a zero. -/
theorem read_chars (d : Decimal) : ∃ c : Decimal, read d.chars = .ok c ∧ c.toRat = d.toRat := by
  let c : Decimal := { d with negative := false }
  refine ⟨(Sign.ofNegative d.negative).apply c, ?_, ?_⟩
  · rw [chars_eq]
    exact read_pointed (d := c) _ rfl
  · rw [Sign.toRat_apply, toRat_eq_value d, toRat_eq_value c]
    rfl

/-- What a text of digits is read as, with a sign put before it. -/
theorem read_digits {s : Sign} (hds : IsDigits ds) (hne : ds ≠ []) :
    read (s.chars ++ ds) = .ok d ↔ ∃ v, zero.Extends ds 0 v ∧ d = s.apply v := by
  have hmark : ∀ c ∈ s.chars ++ ds, isExponentMark c = false := by
    intro c hc
    rcases List.mem_append.1 hc with hc | hc
    · have hsign : s.chars.all (!isExponentMark ·) = true := by cases s <;> decide
      simpa using List.all_eq_true.1 hsign c hc
    · exact isExponentMark_of_isDigit (hds c hc)
  obtain ⟨c, cs, hcs, hc⟩ := hds.exists_cons hne []
  rw [List.append_nil] at hcs
  rw [read_eq_ok_iff hmark, hcs, readPlain_sign s hc, ← hcs]
  simp only [← readDigits_digits hds hne]
  cases readDigits .start ds with
  | ok v => simp [Except.map, eq_comm]
  | error e => simp [Except.map]

/-- A text of digits is read as the number that it stands for. -/
theorem toRat_of_read_digits {s : Sign} (hds : IsDigits ds) (hne : ds ≠ [])
    (h : read (s.chars ++ ds) = .ok d) : d.toRat = s.value (Nat.ofDigitChars 10 ds 0 : ℕ) := by
  obtain ⟨v, hv, rfl⟩ := (read_digits hds hne).1 h
  rw [s.toRat_apply, hv.toRat_eq, pow_zero, div_one]

/-- A text of digits that the mantissa has room for is read. -/
theorem exists_read_digits (s : Sign) (hds : IsDigits ds) (hne : ds ≠ [])
    (h : Nat.ofDigitChars 10 ds 0 < mantissaBound) : ∃ d, read (s.chars ++ ds) = .ok d :=
  ⟨_, (read_digits hds hne).2 ⟨⟨false, _, 0, h, Nat.zero_le _⟩, ⟨rfl, rfl, rfl⟩, rfl⟩⟩

end Passbook.Decimal
