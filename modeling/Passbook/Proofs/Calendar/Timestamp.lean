import Passbook.Proofs.Calendar.Civil

/-!
# Times read back

A time on a statement tells the second that it lies in. The year has as many digits as
it needs, and a sign when it has more than four or is negative; all that follows it has
a fixed width. A leap second counts one more than the second before it. At the end of a
minute that is second `60`, which no other second is written as; but a leap second within
a minute is written as the second after it.

* `Quantity.twoPlaces_append_inj`: numbers of two places in front of anything;
* `Quantity.readYear_yearText`: years are read back;
* `Instant.write_eq_iff`: equal times on statements.
-/

namespace Passbook

namespace Quantity

/-! ## Two places -/

theorem oneDigit_eq {n : ℕ} (hn : n < 10) : oneDigit n = [Nat.digitChar n] := by
  match n, hn with
  | 0, _ | 1, _ | 2, _ | 3, _ | 4, _ | 5, _ | 6, _ | 7, _ | 8, _ | 9, _ => rfl

theorem twoPlaces_eq {n : ℕ} (hn : n < 100) : twoPlaces n .zeros = lastDigits 2 n := by
  have htens : lastDigits 2 n = [Nat.digitChar (n / 10), Nat.digitChar (n % 10)] := by
    simp [lastDigits, Nat.mod_eq_of_lt (show n / 10 < 10 by omega)]
  rw [htens, twoPlaces, oneDigit_eq (Nat.mod_lt n (by decide))]
  split
  · rw [oneDigit_eq (by omega)]
    rfl
  · rw [Nat.div_eq_of_lt (by omega)]
    rfl

theorem length_twoPlaces (n : ℕ) : (twoPlaces n .zeros).length = 2 := by
  rw [twoPlaces]
  split <;> rfl

/-- A number of two places is read off a text that starts with it. -/
theorem twoPlaces_append_inj {n m : ℕ} {cs ds : List Char} (hn : n < 100) (hm : m < 100) :
    twoPlaces n .zeros ++ cs = twoPlaces m .zeros ++ ds ↔ n = m ∧ cs = ds := by
  constructor
  · intro h
    rw [twoPlaces_eq hn, twoPlaces_eq hm] at h
    obtain ⟨hdigits, hrest⟩ := List.append_inj h (by simp)
    have hvalue := congrArg (Nat.ofDigitChars 10 · 0) hdigits
    simp only [ofDigitChars_lastDigits] at hvalue
    exact ⟨by omega, hrest⟩
  · rintro ⟨rfl, rfl⟩
    rfl

/-! ## Years -/

theorem ofDigitChars_paddedLeft (w n : ℕ) :
    Nat.ofDigitChars 10 (paddedLeft w '0' (Nat.toDigits 10 n)) 0 = n := by
  rw [paddedLeft, Nat.ofDigitChars_append, Nat.ofDigitChars_replicate_zero,
    Nat.mul_zero, Nat.ofDigitChars_ten_toDigits]

/-- A year has at least four digits, and a sign unless four are enough. -/
theorem yearText_eq (y : ℤ) : yearText y .zeros =
    (if y < 0 then ['-'] else if 9999 < y then ['+'] else []) ++
      paddedLeft 4 '0' (Nat.toDigits 10 y.natAbs) := by
  rw [yearText]
  split_ifs with h hneg hlarge hneg hlarge
  · omega
  · omega
  · simp [padded, hneg]
  · simp [padded, hneg]
  · simp [padded, hneg]
  · omega

/-- The year that a text stands for. -/
def readYear : List Char → ℤ
  | '-' :: cs => -Nat.ofDigitChars 10 cs 0
  | '+' :: cs => Nat.ofDigitChars 10 cs 0
  | cs => Nat.ofDigitChars 10 cs 0

theorem readYear_of_isDigits {ds : List Char} (hds : IsDigits ds) :
    readYear ds = Nat.ofDigitChars 10 ds 0 := by
  rw [readYear.eq_def]
  split
  · exact absurd (hds '-' List.mem_cons_self) (by decide)
  · exact absurd (hds '+' List.mem_cons_self) (by decide)
  · rfl

/-- A year is read back. -/
theorem readYear_yearText (y : ℤ) : readYear (yearText y .zeros) = y := by
  have hvalue := ofDigitChars_paddedLeft 4 y.natAbs
  have hdigits : IsDigits (paddedLeft 4 '0' (Nat.toDigits 10 y.natAbs)) :=
    (isDigits_replicate_zero _).append (isDigits_toDigits _)
  rw [yearText_eq]
  split_ifs with hneg hlarge
  · rw [List.singleton_append, readYear, hvalue]
    omega
  · rw [List.singleton_append, readYear, hvalue]
    omega
  · rw [List.nil_append, readYear_of_isDigits hdigits, hvalue]
    omega

end Quantity

/-! ## Times -/

namespace Instant

/-- The instants lie in the same second, where a leap second is one of its own. -/
structure SameSecond (i j : Instant) : Prop where
  day : i.day = j.day
  second : i.second = j.second
  leap : i.IsLeap ↔ j.IsLeap

/-- The instant lies in a leap second within a minute, and the other one in the second
    after it. -/
structure StraysInto (i j : Instant) : Prop where
  leap : i.IsLeap
  within : i.secondOfMinute ≠ 59
  day : j.day = i.day
  second : j.second = i.second + 1
  proper : ¬j.IsLeap

/-- The second of the minute as it is written: a leap second counts one more. -/
def writtenSecond (i : Instant) : ℕ := i.secondOfMinute + i.nano / nanosPerSecond

/-- How a time is written on a statement. -/
theorem write_defaultPattern (i : Instant) : Statement.Layout.defaultPattern.write i =
    Quantity.yearText i.date.year .zeros ++ '-' :: (Quantity.twoPlaces i.date.month .zeros ++
      '-' :: (Quantity.twoPlaces i.date.day .zeros ++
        ' ' :: (Quantity.twoPlaces i.hour .zeros ++ ':' :: (Quantity.twoPlaces i.minute .zeros ++
          ':' :: (Quantity.twoPlaces i.writtenSecond .zeros ++ []))))) :=
  rfl

/-- Two times are written alike if the numbers in them are the same. -/
theorem write_eq_iff_written {i j : Instant} :
    Statement.Layout.defaultPattern.write i = Statement.Layout.defaultPattern.write j ↔
      i.day = j.day ∧ i.hour = j.hour ∧ i.minute = j.minute ∧
        i.writtenSecond = j.writtenSecond := by
  rw [write_defaultPattern, write_defaultPattern]
  constructor
  · intro h
    obtain ⟨hmonth, hday, hhour, hminute, hsecond⟩ := i.lt_hundred
    obtain ⟨hmonth', hday', hhour', hminute', hsecond'⟩ := j.lt_hundred
    rw [← writtenSecond] at hsecond hsecond'
    -- Behind the year, all times have the same width.
    obtain ⟨hyear, hrest⟩ := List.append_inj' h (by simp [Quantity.length_twoPlaces])
    simp only [List.cons.injEq, true_and, Quantity.twoPlaces_append_inj hmonth hmonth',
      Quantity.twoPlaces_append_inj hday hday', Quantity.twoPlaces_append_inj hhour hhour',
      Quantity.twoPlaces_append_inj hminute hminute',
      Quantity.twoPlaces_append_inj hsecond hsecond', and_true] at hrest
    obtain ⟨hmonth, hday, htime⟩ := hrest
    have hyear := congrArg Quantity.readYear hyear
    rw [Quantity.readYear_yearText, Quantity.readYear_yearText] at hyear
    have hdate : i.date = j.date := by
      rw [Date.mk.injEq]
      exact ⟨hyear, hmonth, hday⟩
    exact ⟨Function.LeftInverse.injective Date.toDay_ofDay hdate, htime⟩
  · rintro ⟨hday, hhour, hminute, hsecond⟩
    rw [date, hday, hhour, hminute, hsecond]
    rfl

/-- An instant is written one second on if it lies in a leap second. -/
theorem writtenSecond_eq (i : Instant) :
    i.writtenSecond = i.secondOfMinute + if i.IsLeap then 1 else 0 := by
  have hnano := i.nano_lt
  rw [writtenSecond]
  split_ifs with hleap
  all_goals
    simp only [IsLeap, nanosPerSecond] at *
    omega

/-- A leap second within a minute is written as the second after it. -/
theorem StraysInto.written_eq {i j : Instant} (h : i.StraysInto j) :
    i.hour = j.hour ∧ i.minute = j.minute ∧ i.writtenSecond = j.writtenSecond := by
  obtain ⟨hleap, hwithin, -, hsecond, hproper⟩ := h
  simp only [writtenSecond_eq, if_pos hleap, if_neg hproper, hour, minute, secondOfMinute] at *
  omega

/-- Times that are written alike lie in the same second, unless one of them is a leap
    second within a minute, and the other one lies in the second after it. -/
theorem write_eq_iff {i j : Instant} :
    Statement.Layout.defaultPattern.write i = Statement.Layout.defaultPattern.write j ↔
      i.SameSecond j ∨ i.StraysInto j ∨ j.StraysInto i := by
  rw [write_eq_iff_written]
  constructor
  · rintro ⟨hday, hhour, hminute, hsecond⟩
    simp only [writtenSecond_eq, hour, minute, secondOfMinute] at hhour hminute hsecond
    by_cases hi : i.IsLeap <;> by_cases hj : j.IsLeap <;>
      simp only [hi, hj, if_true, if_false] at hsecond
    · exact .inl ⟨hday, by omega, iff_of_true hi hj⟩
    · exact .inr (.inl ⟨hi, by rw [secondOfMinute]; omega, hday.symm, by omega, hj⟩)
    · exact .inr (.inr ⟨hj, by rw [secondOfMinute]; omega, hday, by omega, hi⟩)
    · exact .inl ⟨hday, by omega, iff_of_false hi hj⟩
  · rintro (⟨hday, hsecond, hleap⟩ | hstrays | hstrays)
    · simp [writtenSecond_eq, hour, minute, secondOfMinute, hday, hsecond, hleap]
    · exact ⟨hstrays.day.symm, hstrays.written_eq⟩
    · obtain ⟨hhour, hminute, hsecond⟩ := hstrays.written_eq
      exact ⟨hstrays.day, hhour.symm, hminute.symm, hsecond.symm⟩

end Instant

end Passbook
