import Passbook.Clock

/-!
# The line of instants

Away from leap seconds, an instant is given by its position on the line of
nanoseconds, the calendar follows the order of the line, and spans add up: a
clock that starts outside of leap seconds never gets into one, and its readings
lie one step apart.

* `Instant.ofPosition?_eq_some_iff`: the instants on the line;
* `Instant.Earlier`: the order of the calendar, leap seconds included;
* `Clock.readings_stepping`: the readings of a stepping clock.
-/

namespace Passbook

namespace Instant

variable {i j : Instant} {p : Int}

/-! ## Positions -/

theorem ofParts?_eq_some_iff {day : Int} {second nano : Nat} :
    ofParts? day second nano = some i ↔ i.day = day ∧ i.second = second ∧ i.nano = nano := by
  constructor
  · intro h
    rw [ofParts?] at h
    split at h
    · cases h; exact ⟨rfl, rfl, rfl⟩
    · cases h
  · rintro ⟨rfl, rfl, rfl⟩
    exact dif_pos ⟨i.day_ge, i.day_le, i.second_lt, i.nano_lt⟩

theorem eq_of_parts (hday : i.day = j.day) (hsecond : i.second = j.second)
    (hnano : i.nano = j.nano) : i = j := by
  cases i
  cases j
  cases hday
  cases hsecond
  cases hnano
  rfl

/-- An instant is found at its position, unless it lies in a leap second. -/
theorem ofPosition?_eq_some_iff : ofPosition? p = some i ↔ ¬i.IsLeap ∧ i.position = p := by
  have hsecond := i.second_lt
  simp only [ofPosition?, ofParts?_eq_some_iff, IsLeap, position, nanosPerSecond,
    secondsPerDay] at hsecond ⊢
  omega

/-- The instant lies a number of nanoseconds after the start, on the line. -/
structure Follows (i start : Instant) (n : Int) : Prop where
  not_leap : ¬i.IsLeap
  position : i.position = start.position + n

theorem Follows.refl (h : ¬i.IsLeap) : i.Follows i 0 := ⟨h, (Int.add_zero _).symm⟩

theorem Follows.trans {start : Instant} {m n : Int} (hj : j.Follows i n)
    (hi : i.Follows start m) : j.Follows start (m + n) :=
  ⟨hj.not_leap, by rw [hj.position, hi.position, Int.add_assoc]⟩

theorem follows_of_add? {s : Span} (hi : ¬i.IsLeap) (h : i.add? s = some j) :
    j.Follows i s.nanos := by
  rw [add?, if_pos hi, ofPosition?_eq_some_iff] at h
  exact ⟨h.1, h.2⟩

/-! ## Order -/

/-- The instant comes before the other one in the calendar. -/
def Earlier (i j : Instant) : Prop :=
  i.day < j.day ∨ i.day = j.day ∧ (i.second < j.second ∨ i.second = j.second ∧ i.nano < j.nano)

instance (i j : Instant) : Decidable (i.Earlier j) :=
  inferInstanceAs (Decidable (_ ∨ _))

theorem Earlier.ne (h : i.Earlier j) : i ≠ j := by
  rintro rfl
  rw [Earlier] at h
  omega

/-- The calendar follows the order of the line. -/
theorem earlier_iff_position_lt (hi : ¬i.IsLeap) (hj : ¬j.IsLeap) :
    i.Earlier j ↔ i.position < j.position := by
  have hsecond := i.second_lt
  have hsecond' := j.second_lt
  simp only [Earlier, IsLeap, position, nanosPerSecond, secondsPerDay] at *
  omega

-- A leap second has the positions of the second after it, and comes first.
example :
    let leap : Instant := { day := 0, second := 59, nano := 1000000000 }
    let after : Instant := { day := 0, second := 60, nano := 0 }
    leap.position = after.position ∧ leap.Earlier after := by
  decide

end Instant

namespace Clock

/-! ## Readings -/

variable {c : Clock} {m n : Nat} {ts : List Instant}

/-- The clock can be read that often. -/
def Lasts (c : Clock) (n : Nat) : Prop := (c.readings n).2 = true

instance (c : Clock) (n : Nat) : Decidable (c.Lasts n) :=
  inferInstanceAs (Decidable ((c.readings n).2 = true))

theorem readings_succ_eq_iff : c.readings (n + 1) = (ts, true) ↔
    ∃ now next rest, c.read = some (now, next) ∧ next.readings n = (rest, true) ∧
      ts = now :: rest := by
  rw [readings]
  cases c.read with
  | none => simp
  | some r =>
    constructor
    · intro h
      obtain ⟨hts, hall⟩ := Prod.mk.inj h
      exact ⟨r.1, r.2, _, rfl, Prod.ext rfl hall, hts.symm⟩
    · rintro ⟨now, next, rest, hread, hrest, rfl⟩
      cases hread
      simp only [hrest]

theorem lasts_iff : c.Lasts n ↔ ∃ ts, c.readings n = (ts, true) :=
  ⟨fun h => ⟨_, Prod.ext rfl h⟩, fun ⟨_, h⟩ => congrArg Prod.snd h⟩

theorem lasts_succ_iff :
    c.Lasts (n + 1) ↔ ∃ now next, c.read = some (now, next) ∧ next.Lasts n := by
  simp only [lasts_iff, readings_succ_eq_iff]
  constructor
  · rintro ⟨ts, now, next, rest, hread, hrest, -⟩
    exact ⟨now, next, hread, rest, hrest⟩
  · rintro ⟨now, next, hread, rest, hrest⟩
    exact ⟨_, now, next, rest, hread, hrest, rfl⟩

theorem Lasts.read_ne_none (h : c.Lasts (n + 1)) : c.read ≠ none := by
  obtain ⟨_, _, hread, -⟩ := lasts_succ_iff.1 h
  rw [hread]
  nofun

theorem Lasts.mono (hn : c.Lasts n) (hle : m ≤ n) : c.Lasts m := by
  induction n generalizing c m with
  | zero => rwa [Nat.le_zero.1 hle]
  | succ n ih =>
    cases m with
    | zero => rfl
    | succ m =>
      obtain ⟨now, next, hread, hnext⟩ := lasts_succ_iff.1 hn
      exact lasts_succ_iff.2 ⟨now, next, hread, ih hnext (Nat.le_of_succ_le_succ hle)⟩

/-- The readings of a clock that starts outside of leap seconds lie one step
    apart. -/
theorem readings_stepping {start now : Instant} {step : Span} (hstart : ¬start.IsLeap)
    (h : (stepping start step).readings n = (ts, true)) {k : Nat} (hk : ts[k]? = some now) :
    now.Follows start (k * step.nanos) := by
  induction n generalizing start ts k with
  | zero => cases h; cases hk
  | succ n ih =>
    obtain ⟨t, next, rest, hread, hrest, rfl⟩ := readings_succ_eq_iff.1 h
    obtain ⟨cursor, hadd, hnext⟩ := Option.map_eq_some_iff.1 hread
    cases hnext
    have hcursor := Instant.follows_of_add? hstart hadd
    cases k with
    | zero =>
      cases hk
      simpa using Instant.Follows.refl hstart
    | succ k =>
      have hnow := (ih hcursor.not_leap hrest hk).trans hcursor
      rwa [show step.nanos + k * step.nanos = (k + 1 : Nat) * step.nanos by grind] at hnow

/-- A clock that steps forward shows every time once, in the order of the
    calendar. -/
theorem pairwise_earlier_readings {start : Instant} {step : Span} (hstart : ¬start.IsLeap)
    (hstep : 0 < step.nanos) (h : (stepping start step).readings n = (ts, true)) :
    ts.Pairwise Instant.Earlier := by
  rw [List.pairwise_iff_getElem]
  intro j k hj hk hlt
  have hfirst := readings_stepping hstart h (List.getElem?_eq_getElem hj)
  have hsecond := readings_stepping hstart h (List.getElem?_eq_getElem hk)
  rw [Instant.earlier_iff_position_lt hfirst.not_leap hsecond.not_leap, hfirst.position,
    hsecond.position]
  have := Int.mul_lt_mul_of_pos_right (Int.ofNat_lt.2 hlt) hstep
  omega

end Clock

end Passbook
