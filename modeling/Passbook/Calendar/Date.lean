/-!
# Days and dates

Days are counted from Monday the 1st of January of the year `1`, which is day
`0`; the calendar is the Gregorian one, extended to all years, and the year
before `1` is `0`.

* `yearStart y` counts the days before the year `y`, and `yearOf` finds the
  year of a day (`yearStart_yearOf_le`, `lt_yearStart_yearOf`);
* `Date.toDay`, `Date.ofDay`: dates with month and day of the month;
* `weekdayOf`, `isoYearOf`, `isoWeekOf`: weeks start on Monday, and a week
  belongs to the year of its Thursday.
-/

namespace Passbook

/-- The day on which a year starts. -/
def yearStart (y : Int) : Int :=
  365 * (y - 1) + (y - 1) / 4 - (y - 1) / 100 + (y - 1) / 400

/-- Whether a year has a 29th of February. -/
def isLeapYear (y : Int) : Bool :=
  y % 4 == 0 && (y % 100 != 0 || y % 400 == 0)

/-- The year that a day belongs to. The mean length of a year,
    `146097 / 400` days, gives it up to one. -/
def yearOf (n : Int) : Int :=
  let y := n * 400 / 146097 + 1
  if n < yearStart y then y - 1
  else if yearStart (y + 1) ≤ n then y + 1
  else y

theorem yearStart_yearOf_le (n : Int) : yearStart (yearOf n) ≤ n := by
  unfold yearOf
  simp only []
  split
  · unfold yearStart at *; omega
  · split
    · assumption
    · omega

theorem lt_yearStart_yearOf (n : Int) : n < yearStart (yearOf n + 1) := by
  unfold yearOf
  simp only []
  split
  · rw [Int.sub_add_cancel]; assumption
  · split
    · unfold yearStart at *; omega
    · omega

/-- The number of days of a month. -/
def monthLength (y : Int) : Nat → Nat
  | 2 => if isLeapYear y then 29 else 28
  | 4 | 6 | 9 | 11 => 30
  | _ => 31

/-- The lengths of the months of a year. -/
def monthLengths (y : Int) : List Nat :=
  (List.range 12).map fun m => monthLength y (m + 1)

/-- How many days months of the given lengths have together. -/
def daysOf (lengths : List Nat) : Nat := lengths.foldr (· + ·) 0

/-- How many whole months, of the given lengths, `k` days make, and how many
    days are left. -/
def splitMonths : List Nat → Nat → Nat × Nat
  | [], k => (0, k)
  | l :: ls, k =>
    if k < l then (0, k)
    else
      let (m, rest) := splitMonths ls (k - l)
      (m + 1, rest)

/-- A date; months and days of the month are counted from `1`. -/
structure Date where
  year : Int
  month : Nat
  day : Nat
  deriving DecidableEq

namespace Date

/-- Whether the calendar has the date. -/
def IsValid (d : Date) : Prop :=
  1 ≤ d.month ∧ d.month ≤ 12 ∧ 1 ≤ d.day ∧ d.day ≤ monthLength d.year d.month

instance : DecidablePred IsValid := fun d =>
  inferInstanceAs (Decidable (1 ≤ d.month ∧ d.month ≤ 12 ∧ 1 ≤ d.day ∧
    d.day ≤ monthLength d.year d.month))

/-- The number of a date's day. -/
def toDay (d : Date) : Int :=
  yearStart d.year + daysOf ((monthLengths d.year).take (d.month - 1)) + d.day - 1

/-- The date of a day. -/
def ofDay (n : Int) : Date :=
  let y := yearOf n
  let (m, k) := splitMonths (monthLengths y) (n - yearStart y).toNat
  ⟨y, m + 1, k + 1⟩

end Date

/-- The place of a day in its year, counted from `1`. -/
def dayOfYear (n : Int) : Nat := (n - yearStart (yearOf n)).toNat + 1

/-- The day of the week, counted from Monday, which is `0`. -/
def weekdayOf (n : Int) : Nat := (n % 7).toNat

/-- The Thursday of the week of a day. -/
def thursdayOf (n : Int) : Int := n - n % 7 + 3

/-- The year that the week of a day belongs to. -/
def isoYearOf (n : Int) : Int := yearOf (thursdayOf n)

/-- The number of the week of a day, in the year of that week. -/
def isoWeekOf (n : Int) : Nat := (dayOfYear (thursdayOf n) - 1) / 7 + 1

/-- The number of the week in the calendar year, if weeks start on the day
    that is `since` days before day `n`; days before the first such week are
    in week `0`. -/
def weekOfYear (n : Int) (since : Nat) : Nat := (dayOfYear n + 6 - since) / 7

end Passbook
