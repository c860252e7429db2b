import Passbook.Proofs.Text.Digits
import Passbook.Statement

/-!
# Dates and how they are written

Every day has a date that the calendar has: the months of a year have as many
days together as the year, so that cutting off whole months from the days of a
year ends inside of a month. So the numbers on a date, and those of the time of
the day, have two digits, and what is written of an instant on a statement has
no other characters than digits, signs, colons and blanks.

* `daysOf_monthLengths`: the months of a year make up the year;
* `Date.isValid_ofDay`: the date of a day;
* `Statement.Layout.isTimeChar_of_mem_write`: the characters of a time.
-/

namespace Passbook

/-! ## Months -/

theorem daysOf_monthLengths (y : Int) :
    (daysOf (monthLengths y) : Int) = yearStart (y + 1) - yearStart y := by
  have hyear : yearStart (y + 1) - yearStart y = if isLeapYear y then 366 else 365 := by
    simp only [yearStart, isLeapYear, Bool.and_eq_true, Bool.or_eq_true, beq_iff_eq, bne_iff_ne]
    split <;> omega
  rw [hyear]
  cases h : isLeapYear y <;> simp [daysOf, monthLengths, monthLength, List.range_succ, h]

/-- Days that are fewer than those of the months end inside of one of them. -/
theorem splitMonths_lt (ls : List Nat) {k : Nat} (hk : k < daysOf ls) :
    ∃ l, ls[(splitMonths ls k).1]? = some l ∧ (splitMonths ls k).2 < l := by
  induction ls generalizing k with
  | nil => exact absurd hk (Nat.not_lt_zero k)
  | cons l ls ih =>
    rw [splitMonths]
    split
    · exact ⟨l, rfl, ‹k < l›⟩
    · have hrest : k - l < daysOf ls := by
        rw [daysOf, List.foldr_cons] at hk
        rw [daysOf]
        omega
      exact ih hrest

/-- The date of a day is one that the calendar has. -/
theorem Date.isValid_ofDay (n : Int) : (ofDay n).IsValid := by
  have hle := yearStart_yearOf_le n
  have hlt := lt_yearStart_yearOf n
  have hdays := daysOf_monthLengths (yearOf n)
  obtain ⟨l, hl, hrest⟩ :=
    splitMonths_lt (monthLengths (yearOf n)) (k := (n - yearStart (yearOf n)).toNat) (by omega)
  rw [monthLengths, List.getElem?_map, Option.map_eq_some_iff] at hl
  obtain ⟨m, hm, rfl⟩ := hl
  obtain ⟨hmonth, rfl⟩ := List.getElem?_eq_some_iff.1 hm
  rw [List.length_range] at hmonth
  rw [List.getElem_range] at hrest
  exact ⟨Nat.le_add_left 1 _, hmonth, Nat.le_add_left 1 _, hrest⟩

theorem monthLength_le (y : Int) (m : Nat) : monthLength y m ≤ 31 := by
  rw [monthLength.eq_def]
  split
  · split <;> decide
  all_goals decide

/-! ## Two places -/

theorem isDigit_ofNat {d : ℕ} (hd : d < 10) : (Char.ofNat ('0'.toNat + d)).isDigit = true := by
  match d, hd with
  | 0, _ | 1, _ | 2, _ | 3, _ | 4, _ | 5, _ | 6, _ | 7, _ | 8, _ | 9, _ => rfl

theorem Quantity.isDigits_oneDigit {n : ℕ} (hn : n < 10) : IsDigits (oneDigit n) := by
  intro c hc
  rw [List.mem_singleton.1 hc]
  exact isDigit_ofNat hn

theorem Quantity.isDigits_twoPlaces {n : ℕ} (hn : n < 100) : IsDigits (twoPlaces n .zeros) := by
  have hlast := isDigits_oneDigit (Nat.mod_lt n (show 10 > 0 by decide))
  rw [twoPlaces]
  split
  · exact (isDigits_oneDigit (by omega)).append hlast
  · exact IsDigits.append (isDigits_replicate_zero 1) hlast

/-! ## Times on a statement -/

/-- The characters that times are written with. -/
def IsTimeChar (c : Char) : Prop := c.isDigit = true ∨ c ∈ ['-', '+', ':', ' ']

instance : DecidablePred IsTimeChar := fun _ => inferInstanceAs (Decidable (_ ∨ _))

theorem Quantity.isTimeChar_of_mem_padded {w : ℕ} {plus : Bool} {v : ℤ} {c : Char}
    (hc : c ∈ padded w plus v .zeros) : IsTimeChar c := by
  simp only [padded, paddedLeft] at hc
  rcases List.mem_append.1 hc with hsign | hdigits
  · have hmem : c = '-' ∨ c = '+' := by
      split_ifs at hsign <;> simp_all
    rcases hmem with rfl | rfl <;> exact .inr (by decide)
  · exact .inl ((isDigits_replicate_zero _).append (isDigits_toDigits _) c hdigits)

theorem Quantity.isTimeChar_of_mem_yearText {y : ℤ} {c : Char} (hc : c ∈ yearText y .zeros) :
    IsTimeChar c := by
  rw [yearText] at hc
  split at hc <;> exact isTimeChar_of_mem_padded hc

theorem isTimeChar_of_mem_literal {i : Instant} {l c : Char} (hl : l ∈ ['-', '+', ':', ' '])
    (hc : c ∈ Field.write i (.literal l)) : IsTimeChar c := by
  rw [List.mem_singleton.1 hc]
  exact .inr hl

/-- The numbers of an instant that have two places. -/
theorem Instant.lt_hundred (i : Instant) : i.date.month < 100 ∧ i.date.day < 100 ∧ i.hour < 100 ∧
    i.minute < 100 ∧ i.secondOfMinute + i.nano / nanosPerSecond < 100 := by
  obtain ⟨-, hmonth, -, hday⟩ := Date.isValid_ofDay i.day
  have hlength := monthLength_le i.date.year i.date.month
  have hsecond := i.second_lt
  have hnano := i.nano_lt
  simp only [secondsPerDay, nanosPerSecond, hour, minute, secondOfMinute] at *
  refine ⟨?_, ?_, ?_, ?_, ?_⟩
  · exact hmonth.trans_lt (by decide)
  · exact (hday.trans hlength).trans_lt (by decide)
  all_goals omega

/-- The time of a transaction is written with digits, signs, colons and blanks. -/
theorem Statement.Layout.isTimeChar_of_mem_write {i : Instant} {c : Char}
    (hc : c ∈ defaultPattern.write i) : IsTimeChar c := by
  obtain ⟨hmonth, hday, hhour, hminute, hsecond⟩ := i.lt_hundred
  obtain ⟨f, hf, hc⟩ := List.mem_flatMap.1 hc
  simp only [defaultPattern, Field.joined, Field.plain, List.intersperse, List.cons_append,
    List.nil_append, List.mem_cons, List.not_mem_nil, or_false] at hf
  rcases hf with rfl | rfl | rfl | rfl | rfl | rfl | rfl | rfl | rfl | rfl | rfl
  · exact Quantity.isTimeChar_of_mem_yearText hc
  · exact isTimeChar_of_mem_literal (by decide) hc
  · exact .inl (Quantity.isDigits_twoPlaces hmonth c hc)
  · exact isTimeChar_of_mem_literal (by decide) hc
  · exact .inl (Quantity.isDigits_twoPlaces hday c hc)
  · exact isTimeChar_of_mem_literal (by decide) hc
  · exact .inl (Quantity.isDigits_twoPlaces hhour c hc)
  · exact isTimeChar_of_mem_literal (by decide) hc
  · exact .inl (Quantity.isDigits_twoPlaces hminute c hc)
  · exact isTimeChar_of_mem_literal (by decide) hc
  · exact .inl (Quantity.isDigits_twoPlaces hsecond c hc)

theorem Statement.Layout.notMem_write {c : Char} (hc : ¬IsTimeChar c) (i : Instant) :
    c ∉ defaultPattern.write i :=
  fun hmem => hc (isTimeChar_of_mem_write hmem)

end Passbook
