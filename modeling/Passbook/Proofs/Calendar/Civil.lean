import Mathlib.Algebra.Order.BigOperators.Group.List
import Mathlib.Logic.Function.Iterate
import Passbook.Proofs.Calendar.Date
import Passbook.Proofs.Calendar.Line

/-!
# Days and the calendar

Counting days is going through the calendar: the dates that the calendar has are
those of the days, each of one day, in the same order, and the date of the next day
is the next date. So the line of nanoseconds is that of the calendar.

* `Date.toDay_ofDay`, `Date.ofDay_toDay`: days and dates correspond;
* `Date.toDay_lt_iff`: their orders agree;
* `Date.next`, `Date.next_ofDay`: so do the steps from one to the next;
* `Instant.ofCivil?_eq_some_iff`: an instant is given by its date and time;
* `Instant.earlier_iff_fields_lt`: the order of instants is that of the fields that
  they are written with;
* `Instant.Elapses`, `Instant.elapses_iff`: the time between two instants by the
  calendar is their distance on the line.
-/

namespace Passbook

/-! ## Months -/

theorem yearStart_lt {y z : Int} (h : y < z) : yearStart y < yearStart z := by
  unfold yearStart
  omega

theorem monthLength_pos (y : Int) (m : Nat) : 1 ≤ monthLength y m := by
  rw [monthLength.eq_def]
  split
  · split <;> decide
  all_goals decide

theorem daysOf_eq_sum (ls : List Nat) : daysOf ls = ls.sum := rfl

/-- The days of a year before a month, which is counted from `0`. -/
def daysBefore (y : Int) (m : Nat) : Nat := daysOf ((monthLengths y).take m)

theorem daysBefore_succ (y : Int) {m : Nat} (hm : m < 12) :
    daysBefore y (m + 1) = daysBefore y m + monthLength y (m + 1) := by
  have hget : (monthLengths y)[m]? = some (monthLength y (m + 1)) := by
    rw [monthLengths, List.getElem?_map, List.getElem?_range hm]
    rfl
  rw [daysBefore, daysBefore, List.take_add_one, hget, daysOf_eq_sum, daysOf_eq_sum,
    List.sum_append, Option.toList_some, List.sum_singleton]

theorem daysBefore_mono (y : Int) {m n : Nat} (h : m ≤ n) : daysBefore y m ≤ daysBefore y n :=
  (List.take_sublist_take_left h).sum_le_sum fun _ _ => Nat.zero_le _

theorem daysBefore_twelve (y : Int) : (daysBefore y 12 : Int) = yearStart (y + 1) - yearStart y :=
  daysOf_monthLengths y

/-- Whole months and the days that are left make up all days. -/
theorem daysOf_splitMonths (ls : List Nat) (k : Nat) :
    daysOf (ls.take (splitMonths ls k).1) + (splitMonths ls k).2 = k := by
  induction ls generalizing k with
  | nil => simp [splitMonths, daysOf]
  | cons l ls ih =>
    rw [splitMonths]
    split
    · simp [daysOf]
    · have := ih (k - l)
      simp only [List.take_succ_cons, daysOf_eq_sum, List.sum_cons] at this ⊢
      omega

/-! ## Dates -/

namespace Date

variable {d e : Date}

theorem toDay_eq (d : Date) :
    d.toDay = yearStart d.year + daysBefore d.year (d.month - 1) + d.day - 1 :=
  rfl

theorem toDay_ofDay (n : Int) : (ofDay n).toDay = n := by
  have hsplit := daysOf_splitMonths (monthLengths (yearOf n)) (n - yearStart (yearOf n)).toNat
  have hle := yearStart_yearOf_le n
  rw [toDay_eq, daysBefore, ofDay]
  simp only [Nat.add_sub_cancel]
  omega

/-- The date comes before the other one. -/
def Before (d e : Date) : Prop :=
  d.year < e.year ∨ d.year = e.year ∧ (d.month < e.month ∨ d.month = e.month ∧ d.day < e.day)

theorem before_trichotomy (d e : Date) : d.Before e ∨ d = e ∨ e.Before d := by
  obtain ⟨y, m, k⟩ := d
  obtain ⟨y', m', k'⟩ := e
  simp only [Before, Date.mk.injEq]
  omega

/-- A date lies in its month. -/
theorem IsValid.toDay_bounds (hd : d.IsValid) :
    yearStart d.year + daysBefore d.year (d.month - 1) ≤ d.toDay ∧
      d.toDay < yearStart d.year + daysBefore d.year d.month := by
  obtain ⟨hmonth, hmonth', hday, hday'⟩ := hd
  have hsucc := daysBefore_succ d.year (m := d.month - 1) (by omega)
  rw [Nat.sub_add_cancel hmonth] at hsucc
  rw [toDay_eq]
  omega

/-- A date lies in its year. -/
theorem IsValid.toDay_year (hd : d.IsValid) :
    yearStart d.year ≤ d.toDay ∧ d.toDay < yearStart (d.year + 1) := by
  obtain ⟨hlow, hhigh⟩ := hd.toDay_bounds
  have hmono := daysBefore_mono d.year hd.2.1
  have htwelve := daysBefore_twelve d.year
  omega

/-- Days are counted in the order of the calendar. -/
theorem Before.toDay_lt (h : d.Before e) (hd : d.IsValid) (he : e.IsValid) :
    d.toDay < e.toDay := by
  obtain hyear | ⟨hyear, hmonth | ⟨hmonth, hday⟩⟩ := h
  · -- The year of the first date is over when that of the other one starts.
    have hle : yearStart (d.year + 1) ≤ yearStart e.year := by
      rcases Int.lt_or_eq_of_le (Int.add_one_le_of_lt hyear) with hlt | heq
      · exact Int.le_of_lt (yearStart_lt hlt)
      · exact Int.le_of_eq (congrArg yearStart heq)
    exact Int.lt_of_lt_of_le hd.toDay_year.2 (Int.le_trans hle he.toDay_year.1)
  · -- So is its month.
    have hmono := daysBefore_mono d.year (show d.month ≤ e.month - 1 by omega)
    have hhigh := hd.toDay_bounds.2
    have hlow := he.toDay_bounds.1
    rw [← hyear] at hlow
    omega
  · rw [toDay_eq, toDay_eq, hyear, hmonth]
    omega

theorem toDay_lt_iff (hd : d.IsValid) (he : e.IsValid) : d.toDay < e.toDay ↔ d.Before e := by
  refine ⟨fun h => ?_, fun h => h.toDay_lt hd he⟩
  rcases before_trichotomy d e with hbefore | rfl | hafter
  · exact hbefore
  · exact absurd h (Int.lt_irrefl _)
  · exact absurd h (Int.not_lt.2 (Int.le_of_lt (hafter.toDay_lt he hd)))

theorem ofDay_toDay (hd : d.IsValid) : ofDay d.toDay = d := by
  have hvalid := isValid_ofDay d.toDay
  have htoDay := toDay_ofDay d.toDay
  rcases before_trichotomy (ofDay d.toDay) d with hbefore | heq | hafter
  · exact absurd (hbefore.toDay_lt hvalid hd) (by omega)
  · exact heq
  · exact absurd (hafter.toDay_lt hd hvalid) (by omega)

/-- The next date in the calendar. -/
def next (d : Date) : Date :=
  if d.day < monthLength d.year d.month then ⟨d.year, d.month, d.day + 1⟩
  else if d.month < 12 then ⟨d.year, d.month + 1, 1⟩
  else ⟨d.year + 1, 1, 1⟩

theorem IsValid.next (hd : d.IsValid) : d.next.IsValid := by
  obtain ⟨hmonth, hmonth', hday, hday'⟩ := hd
  rw [Date.next]
  split_ifs with hlt hmore
  · exact ⟨hmonth, hmonth', Nat.le_add_left 1 _, hlt⟩
  · exact ⟨Nat.le_add_left 1 _, hmore, Nat.le_refl 1, monthLength_pos ..⟩
  · exact ⟨Nat.le_refl 1, Nat.le_add_left 1 11, Nat.le_refl 1, monthLength_pos ..⟩

/-- The next date is that of the next day. -/
theorem IsValid.toDay_next (hd : d.IsValid) : d.next.toDay = d.toDay + 1 := by
  obtain ⟨hmonth, hmonth', hday, hday'⟩ := hd
  have hsucc := daysBefore_succ d.year (m := d.month - 1) (by omega)
  rw [Nat.sub_add_cancel hmonth] at hsucc
  rw [Date.next, toDay_eq d]
  split
  next hlt =>
    rw [toDay_eq]
    dsimp only
    omega
  next hend =>
    obtain hday : d.day = monthLength d.year d.month := by omega
    split
    next hmore =>
      rw [toDay_eq]
      dsimp only
      rw [Nat.add_sub_cancel]
      omega
    next hlast =>
      -- After the last month there are as many days as the year has.
      obtain hlast : d.month = 12 := by omega
      have htwelve := daysBefore_twelve d.year
      have hzero : daysBefore (d.year + 1) (1 - 1) = 0 := rfl
      rw [hlast] at hsucc hday ⊢
      rw [toDay_eq]
      dsimp only
      omega

theorem next_ofDay (n : Int) : (ofDay n).next = ofDay (n + 1) := by
  have hvalid := isValid_ofDay n
  rw [← ofDay_toDay hvalid.next, hvalid.toDay_next, toDay_ofDay]

theorem iterate_next_ofDay (k : Nat) (n : Int) : next^[k] (ofDay n) = ofDay (n + k) := by
  induction k with
  | zero => simp
  | succ k ih =>
    rw [Function.iterate_succ_apply', ih, next_ofDay]
    congr 1
    omega

end Date

/-! ## Instants -/

namespace Instant

variable {i j : Instant}

/-- An instant is given by its date and the time of the day, unless it lies in a leap
    second within a minute. -/
theorem ofCivil?_eq_some_iff {d : Date} {hour minute second nano : Nat} :
    ofCivil? d hour minute second nano = some i ↔ (i.date = d ∧ i.hour = hour ∧
      i.minute = minute ∧ i.secondOfMinute = second ∧ i.nano = nano) ∧
      (i.IsLeap → i.secondOfMinute = 59) := by
  have hsecond := i.second_lt
  rw [ofCivil?]
  simp only [secondsPerDay, Instant.hour, Instant.minute, secondOfMinute, IsLeap] at *
  constructor
  · intro h
    split at h
    · next hcivil =>
      obtain ⟨hdate, hsum, rfl⟩ := ofParts?_eq_some_iff.1 h
      refine ⟨⟨?_, by omega, by omega, by omega, rfl⟩, by omega⟩
      rw [date, hdate, Date.ofDay_toDay hcivil.1]
    · cases h
  · rintro ⟨⟨rfl, rfl, rfl, rfl, rfl⟩, hleap⟩
    rw [if_pos ⟨Date.isValid_ofDay i.day, by omega, by omega, by omega, hleap⟩,
      ofParts?_eq_some_iff]
    exact ⟨(Date.toDay_ofDay i.day).symm, by omega, rfl⟩

/-- The numbers that an instant is written with, from the year on. -/
def fields (i : Instant) : List Int :=
  [i.date.year, i.date.month, i.date.day, i.hour, i.minute, i.secondOfMinute, i.nano]

theorem Earlier.fields_lt (h : i.Earlier j) : i.fields < j.fields := by
  rw [fields, fields]
  obtain hday | ⟨hday, htime⟩ := h
  · have hbefore : i.date.Before j.date := by
      refine (Date.toDay_lt_iff (Date.isValid_ofDay i.day) (Date.isValid_ofDay j.day)).1 ?_
      rwa [Date.toDay_ofDay, Date.toDay_ofDay]
    simp only [List.cons_lt_cons_iff, Int.ofNat_lt, Int.natCast_inj]
    rw [Date.Before] at hbefore
    tauto
  · have hdate : i.date = j.date := congrArg Date.ofDay hday
    simp only [hdate, List.cons_lt_cons_iff, Int.lt_irrefl, false_or, true_and, hour, minute,
      secondOfMinute, List.not_lt_nil, and_false, or_false]
    omega

theorem earlier_trichotomy (i j : Instant) : i.Earlier j ∨ i = j ∨ j.Earlier i := by
  by_cases hparts : i.day = j.day ∧ i.second = j.second ∧ i.nano = j.nano
  · exact .inr (.inl (eq_of_parts hparts.1 hparts.2.1 hparts.2.2))
  · rw [Earlier, Earlier]
    omega

/-- The calendar is in the order of its fields. -/
theorem earlier_iff_fields_lt : i.Earlier j ↔ i.fields < j.fields := by
  refine ⟨Earlier.fields_lt, fun h => ?_⟩
  rcases earlier_trichotomy i j with hbefore | rfl | hafter
  · exact hbefore
  · exact absurd h (List.lt_irrefl _)
  · exact absurd h (List.lt_asymm hafter.fields_lt)

/-! ## Time that goes by -/

/-- The time of the day, in nanoseconds. -/
def timeOfDay (i : Instant) : Nat :=
  ((i.hour * 60 + i.minute) * 60 + i.secondOfMinute) * nanosPerSecond + i.nano

theorem position_eq (i : Instant) :
    i.position = i.day * (secondsPerDay * nanosPerSecond) + i.timeOfDay := by
  simp only [position, timeOfDay, hour, minute, secondOfMinute, secondsPerDay, nanosPerSecond]
  omega

/-- The time between two instants by the calendar: from one to the other it is a
    number of dates, and the rest is the difference of the times of the day. -/
def Elapses (i j : Instant) (n : Nat) : Prop :=
  ∃ days : Nat, j.date = Date.next^[days] i.date ∧
    days * (secondsPerDay * nanosPerSecond) + j.timeOfDay = i.timeOfDay + n

theorem date_eq_iterate_iff {days : Nat} :
    j.date = Date.next^[days] i.date ↔ j.day = i.day + days := by
  rw [date, date, Date.iterate_next_ofDay]
  exact (Function.LeftInverse.injective Date.toDay_ofDay).eq_iff

/-- Time goes by along the line of nanoseconds. -/
theorem elapses_iff (hi : ¬i.IsLeap) (hj : ¬j.IsLeap) {n : Nat} :
    i.Elapses j n ↔ j.position = i.position + n := by
  have htime (k : Instant) (hk : ¬k.IsLeap) : k.timeOfDay < secondsPerDay * nanosPerSecond := by
    have hsecond := k.second_lt
    simp only [IsLeap, timeOfDay, hour, minute, secondOfMinute, secondsPerDay,
      nanosPerSecond] at hk hsecond ⊢
    omega
  have hti := htime i hi
  have htj := htime j hj
  simp only [Elapses, date_eq_iterate_iff, position_eq]
  unfold secondsPerDay nanosPerSecond at *
  constructor
  · rintro ⟨days, hday, htotal⟩
    omega
  · -- The times of the day are too short to make up for a day.
    intro h
    exact ⟨(j.day - i.day).toNat, by omega, by omega⟩

end Instant

end Passbook
