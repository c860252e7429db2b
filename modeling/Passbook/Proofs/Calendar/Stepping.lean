import Passbook.Account.Attempt
import Passbook.Proofs.Calendar.Civil

/-!
# Stepping clocks

A stepping clock moves along the line of nanoseconds, and shows where it is until
the next step would leave the range. From then on it cannot be read any more.

* `Instant.add?_cases`: where a span leads, leap seconds included;
* `Clock.lasts_stepping_iff`: how often a clock can be read;
* `Clock.tick`: trying to read a clock, which stays if it cannot be read
  (`Clock.afterTicks_of_none`);
* `Clock.pairwise_readings`: what a step does, many steps do;
* `Clock.steppingRule`: what the readings of a clock are.
-/

namespace Passbook

/-! ## Spans -/

namespace Instant

variable {i j : Instant} {s : Span} {p : Int}

/-- The position of the first instant. -/
def firstPosition : Int := firstDay * (secondsPerDay * nanosPerSecond)

/-- The position of the last instant outside of leap seconds. -/
def lastPosition : Int := (lastDay + 1) * (secondsPerDay * nanosPerSecond) - 1

/-- The position lies in the range of instants. -/
def InRange (p : Int) : Prop := firstPosition ≤ p ∧ p ≤ lastPosition

/-- All positions in the range are those of instants. -/
theorem exists_ofPosition?_iff : (∃ i, ofPosition? p = some i) ↔ InRange p := by
  constructor
  · rintro ⟨i, hi⟩
    obtain ⟨hleap, rfl⟩ := ofPosition?_eq_some_iff.1 hi
    have hge := i.day_ge
    have hle := i.day_le
    have hsecond := i.second_lt
    simp only [InRange, firstPosition, lastPosition, position, IsLeap, secondsPerDay,
      nanosPerSecond] at *
    omega
  · intro h
    simp only [InRange, firstPosition, lastPosition, secondsPerDay, nanosPerSecond] at h
    refine ⟨_, dif_pos ⟨?_, ?_, ?_, ?_⟩⟩
    all_goals
      simp only [secondsPerDay, nanosPerSecond]
      omega

theorem inRange_position (hi : ¬i.IsLeap) : InRange i.position :=
  exists_ofPosition?_iff.1 ⟨i, ofPosition?_eq_some_iff.2 ⟨hi, rfl⟩⟩

/-- What lies between two positions in the range is in the range, too. -/
theorem InRange.step {n : Nat} {t : Int} (hp : InRange p) (h : InRange (p + (n + 1 : Nat) * t)) :
    InRange (p + t) := by
  have hmul : ((n + 1 : Nat) : Int) * t = n * t + t := by grind
  rw [hmul] at h
  rw [InRange] at *
  rcases Int.le_total 0 t with ht | ht
  · have := Int.mul_nonneg (Int.natCast_nonneg n) ht
    omega
  · have := Int.mul_nonpos_of_nonneg_of_nonpos (Int.natCast_nonneg n) ht
    omega

/-- Where a span leads: along the line, or out of a leap second on the other side, or
    to another place inside of the leap second. -/
theorem add?_cases (h : i.add? s = some j) :
    (¬j.IsLeap ∧ j.position = i.position + s.nanos ∧ (i.IsLeap → s.nanos ≤ -nanosPerSecond)) ∨
      (i.IsLeap ∧ ¬j.IsLeap ∧ j.position = i.position - nanosPerSecond + s.nanos ∧
        2 * nanosPerSecond ≤ i.nano + s.nanos) ∨
      (i.IsLeap ∧ j.day = i.day ∧ j.second = i.second ∧ (j.nano : Int) = i.nano + s.nanos) := by
  rw [add?] at h
  split at h
  next hi =>
    obtain ⟨hj, hposition⟩ := ofPosition?_eq_some_iff.1 h
    exact .inl ⟨hj, hposition, fun hleap => absurd hleap hi⟩
  next hi =>
    rw [Decidable.not_not] at hi
    split at h
    next hforward =>
      obtain ⟨hj, hposition⟩ := ofPosition?_eq_some_iff.1 h
      exact .inr (.inl ⟨hi, hj, hposition, hforward⟩)
    next hforward =>
      split at h
      next hback =>
        obtain ⟨hj, hposition⟩ := ofPosition?_eq_some_iff.1 h
        exact .inl ⟨hj, hposition, fun _ => hback⟩
      next hback =>
        -- What goes back less than a second keeps the nanosecond from falling below zero.
        obtain ⟨hday, hsecond, hnano⟩ := ofParts?_eq_some_iff.1 h
        rw [IsLeap] at hi
        exact .inr (.inr ⟨hi, hday, hsecond, by omega⟩)

/-- A step forward goes forward in the calendar, -/
theorem earlier_of_add?_pos (hs : 0 < s.nanos) (h : i.add? s = some j) : i.Earlier j := by
  have hi := i.second_lt
  have hj := j.second_lt
  have hcases := add?_cases h
  simp only [Earlier, IsLeap, position, secondsPerDay, nanosPerSecond] at *
  omega

/-- a step back goes back, -/
theorem earlier_of_add?_neg (hs : s.nanos < 0) (h : i.add? s = some j) : j.Earlier i := by
  have hi := i.second_lt
  have hj := j.second_lt
  have hcases := add?_cases h
  have hnano := i.nano_lt
  simp only [Earlier, IsLeap, position, secondsPerDay, nanosPerSecond] at *
  omega

/-- and no step stays. -/
theorem eq_of_add?_zero (hs : s.nanos = 0) (h : i.add? s = some j) : i = j := by
  have hi := i.second_lt
  have hj := j.second_lt
  have hcases := add?_cases h
  have hnano := i.nano_lt
  simp only [IsLeap, position, secondsPerDay, nanosPerSecond] at *
  exact eq_of_parts (by omega) (by omega) (by omega)

/-- By the calendar, the instant is `n` nanoseconds after the other one, or before it
    if `n` is negative. -/
def IsAfter (j i : Instant) (n : Int) : Prop :=
  if 0 ≤ n then i.Elapses j n.toNat else j.Elapses i (-n).toNat

theorem Follows.isAfter {n : Int} (hi : ¬i.IsLeap) (h : j.Follows i n) : j.IsAfter i n := by
  have hposition := h.position
  rw [IsAfter]
  split
  · rw [elapses_iff hi h.not_leap]
    omega
  · rw [elapses_iff h.not_leap hi]
    omega

theorem Earlier.trans {k : Instant} (hij : i.Earlier j) (hjk : j.Earlier k) : i.Earlier k := by
  rw [Earlier] at *
  omega

end Instant

namespace Clock

variable {c : Clock} {start : Instant} {step : Span} {k n : Nat}

/-! ## How often a clock can be read -/

theorem readings_stepping_succ (start : Instant) (step : Span) (n : Nat) :
    (stepping start step).readings (n + 1) =
      match start.add? step with
      | none => ([], false)
      | some next =>
        (start :: ((stepping next step).readings n).1, ((stepping next step).readings n).2) := by
  rw [readings, read]
  cases start.add? step <;> rfl

/-- Outside of leap seconds, a clock can be read as long as the steps stay in the
    range. -/
theorem lasts_stepping_iff (hstart : ¬start.IsLeap) (n : Nat) :
    (stepping start step).Lasts n ↔ Instant.InRange (start.position + n * step.nanos) := by
  induction n generalizing start with
  | zero =>
    refine iff_of_true rfl ?_
    simpa using Instant.inRange_position hstart
  | succ n ih =>
    have hmul : ((n + 1 : Nat) : Int) * step.nanos = step.nanos + n * step.nanos := by grind
    rw [Lasts, readings_stepping_succ]
    cases hadd : start.add? step with
    | none =>
      -- The first step leaves the range already, and the others lead farther away.
      refine iff_of_false Bool.false_ne_true fun h => ?_
      obtain ⟨i, hi⟩ := Instant.exists_ofPosition?_iff.2
        ((Instant.inRange_position hstart).step h)
      rw [Instant.add?, if_pos hstart, hi] at hadd
      cases hadd
    | some next =>
      have hnext := Instant.follows_of_add? hstart hadd
      rw [← Lasts, ih hnext.not_leap, hnext.position, hmul, Int.add_assoc]

theorem length_readings (h : c.Lasts n) : (c.readings n).1.length = n := by
  induction n generalizing c with
  | zero => rfl
  | succ n ih =>
    obtain ⟨now, next, hread, hnext⟩ := lasts_succ_iff.1 h
    rw [readings, hread]
    exact congrArg (· + 1) (ih hnext)

/-! ## Clocks that cannot be read any more -/

/-- Tries to read a clock: what it shows, if it can be read, and the clock after it. A
    clock that cannot be read stays as it is. -/
def tick (c : Clock) : Option Instant × Clock :=
  match c.read with
  | none => (none, c)
  | some (now, next) => (some now, next)

/-- The clock after trying to read it `k` times. -/
def afterTicks (c : Clock) (k : Nat) : Clock := (fun c => c.tick.2)^[k] c

/-- What an account leaves of a clock is what trying to read it leaves. -/
theorem clock_record (a : Account) (c : Clock) (command : Command) :
    (a.record c command).clock = c.tick.2 ∧
      ((a.record c command).verdict = .stopped .clock ↔ c.tick.1 = none) := by
  rw [Account.record, tick]
  cases c.read <;> simp

theorem tick_eq_none_iff : c.tick.1 = none ↔ c.read = none := by
  rw [tick]
  cases c.read <;> simp

theorem tick_of_read_eq_none (h : c.read = none) : c.tick = (none, c) := by
  rw [tick, h]

/-- A clock that cannot be read never can be again. -/
theorem afterTicks_of_none (h : c.tick.1 = none) (k : Nat) : c.afterTicks k = c := by
  rw [tick_eq_none_iff] at h
  exact Function.iterate_fixed (by rw [tick_of_read_eq_none h]) k

theorem afterTicks_add (c : Clock) (j k : Nat) :
    c.afterTicks (j + k) = (c.afterTicks j).afterTicks k := by
  rw [afterTicks, Nat.add_comm, Function.iterate_add_apply]
  rfl

theorem afterTicks_succ (c : Clock) (k : Nat) : c.afterTicks (k + 1) = (c.afterTicks k).tick.2 :=
  Function.iterate_succ_apply' ..

/-- Readings are what trying to read shows. -/
theorem getElem?_readings (c : Clock) (hk : k < n) :
    (c.readings n).1[k]? = (c.afterTicks k).tick.1 := by
  induction n generalizing c k with
  | zero => exact absurd hk (Nat.not_lt_zero k)
  | succ n ih =>
    rw [readings]
    cases hread : c.read with
    | none =>
      rw [afterTicks_of_none (tick_eq_none_iff.2 hread), tick_eq_none_iff.2 hread]
      rfl
    | some r =>
      have htick : c.tick = (some r.1, r.2) := by rw [tick, hread]
      cases k with
      | zero => exact (congrArg Prod.fst htick).symm
      | succ k =>
        have hafter : c.afterTicks (k + 1) = r.2.afterTicks k := by
          rw [afterTicks, Function.iterate_succ_apply, htick]
          rfl
        rw [hafter]
        exact ih r.2 (Nat.lt_of_succ_lt_succ hk)

/-! ## The order of the readings -/

section

variable {R : Instant → Instant → Prop} (htrans : ∀ i j k, R i j → R j k → R i k)
  (hstep : ∀ i j : Instant, i.add? step = some j → R i j)

include htrans hstep

/-- If a step leads to a related instant, so do many. -/
theorem eq_or_rel_of_mem_readings {t : Instant}
    (ht : t ∈ ((stepping start step).readings n).1) : t = start ∨ R start t := by
  induction n generalizing start with
  | zero => cases ht
  | succ n ih =>
    rw [readings_stepping_succ] at ht
    cases hadd : start.add? step with
    | none =>
      rw [hadd] at ht
      cases ht
    | some next =>
      rw [hadd] at ht
      rcases List.mem_cons.1 ht with rfl | ht
      · exact .inl rfl
      · rcases ih ht with rfl | hrel
        · exact .inr (hstep _ _ hadd)
        · exact .inr (htrans _ _ _ (hstep _ _ hadd) hrel)

theorem pairwise_readings (start : Instant) (n : Nat) :
    ((stepping start step).readings n).1.Pairwise R := by
  induction n generalizing start with
  | zero => exact .nil
  | succ n ih =>
    rw [readings_stepping_succ]
    cases hadd : start.add? step with
    | none => exact .nil
    | some next =>
      refine List.pairwise_cons.2 ⟨fun t ht => ?_, ih next⟩
      rcases eq_or_rel_of_mem_readings htrans hstep ht with rfl | hrel
      · exact hstep _ _ hadd
      · exact htrans _ _ _ (hstep _ _ hadd) hrel

end

/-! ## What a stepping clock shows -/

/-- What a clock shows that starts at an instant and moves by a step. -/
structure SteppingRule (start : Instant) (step : Span) : Prop where
  /-- The range starts with the year `-262143`, -/
  first_eq : (Instant.ofCivil? ⟨-262143, 1, 1⟩ 0 0 0 0).map Instant.position =
    some Instant.firstPosition
  /-- and ends with the year `262142`. -/
  last_eq : (Instant.ofCivil? ⟨262142, 12, 31⟩ 23 59 59 999999999).map Instant.position =
    some Instant.lastPosition
  /-- Outside of leap seconds, the clock can be read `n` times exactly if `n` steps do
      not lead out of the range, -/
  lasts_iff : ¬start.IsLeap → ∀ n : Nat, (stepping start step).Lasts n ↔
    Instant.InRange (start.position + n * step.nanos)
  /-- and then each reading lies as many steps after the start as there are readings
      before it. -/
  reading : ¬start.IsLeap → ∀ n k : Nat, (stepping start step).Lasts n → k < n →
    ∃ now, ((stepping start step).readings n).1[k]? = some now ∧ ¬now.IsLeap ∧
      now.IsAfter start (k * step.nanos)
  /-- The readings are what trying to read the clock shows, -/
  shown : ∀ n k : Nat, k < n → ((stepping start step).readings n).1[k]? =
    ((stepping start step).afterTicks k).tick.1
  /-- and so is what an account gets that records a transaction, -/
  recorded : ∀ (k : Nat) (a : Account) (command : Command),
    let c := (stepping start step).afterTicks k
    (a.record c command).clock = (stepping start step).afterTicks (k + 1) ∧
      ((a.record c command).verdict = .stopped .clock ↔ c.tick.1 = none)
  /-- and once the clock cannot be read, it stays and never can be read again. -/
  stays : ∀ j k : Nat, j ≤ k → ((stepping start step).afterTicks j).tick.1 = none →
    (stepping start step).afterTicks k = (stepping start step).afterTicks j ∧
      ((stepping start step).afterTicks k).tick.1 = none
  /-- Steps forward are readings in the order of the calendar, -/
  increasing : 0 < step.nanos → ∀ n : Nat,
    ((stepping start step).readings n).1.Pairwise fun i j => i.fields < j.fields
  /-- steps back are readings in the opposite order, -/
  decreasing : step.nanos < 0 → ∀ n : Nat,
    ((stepping start step).readings n).1.Pairwise fun i j => j.fields < i.fields
  /-- and without a step all readings are the same. -/
  constant : step.nanos = 0 → ∀ n : Nat, ∀ t ∈ ((stepping start step).readings n).1, t = start

/-- All stepping clocks follow the rule. -/
theorem steppingRule (start : Instant) (step : Span) : SteppingRule start step := by
  constructor
  case first_eq => decide +kernel
  case last_eq => decide +kernel
  case lasts_iff => exact lasts_stepping_iff
  case reading =>
    intro hstart n k hlasts hk
    rw [← length_readings hlasts] at hk
    have hget := List.getElem?_eq_getElem hk
    have hfollows := readings_stepping hstart (Prod.ext rfl hlasts) hget
    exact ⟨_, hget, hfollows.not_leap, hfollows.isAfter hstart⟩
  case shown => exact fun n k hk => getElem?_readings _ hk
  case recorded =>
    intro k a command
    rw [afterTicks_succ]
    exact clock_record a _ command
  case stays =>
    intro j k hjk hnone
    have hstays : (stepping start step).afterTicks k = (stepping start step).afterTicks j := by
      rw [← Nat.add_sub_cancel' hjk, afterTicks_add, afterTicks_of_none hnone]
    exact ⟨hstays, hstays ▸ hnone⟩
  case increasing =>
    intro hstep n
    simp only [← Instant.earlier_iff_fields_lt]
    exact pairwise_readings (fun _ _ _ => .trans) (fun _ _ => Instant.earlier_of_add?_pos hstep)
      start n
  case decreasing =>
    intro hstep n
    simp only [← Instant.earlier_iff_fields_lt]
    exact pairwise_readings (fun _ _ _ hij hjk => hjk.trans hij)
      (fun _ _ => Instant.earlier_of_add?_neg hstep) start n
  case constant =>
    intro hstep n t ht
    rcases eq_or_rel_of_mem_readings (R := Eq) (fun _ _ _ => Eq.trans)
      (fun _ _ => Instant.eq_of_add?_zero hstep) ht with heq | heq
    · exact heq
    · exact heq.symm

/-- A nanosecond before the 1st of March of 2000 it is still the 29th of February, and a
    second after the leap second of 2016 has begun it is over. -/
theorem steppingRule_leap_day :
    let march : Instant := { day := 730179, second := 0, nano := 0 }
    let back : Span := { nanos := -1 }
    let leap : Instant := { day := 736328, second := 86399, nano := 1000000000 }
    let second : Span := { nanos := 1000000000 }
    (march.fields = [2000, 3, 1, 0, 0, 0, 0] ∧ ¬march.IsLeap ∧ SteppingRule march back ∧
      ((stepping march back).readings 2).1.map Instant.fields =
        [[2000, 3, 1, 0, 0, 0, 0], [2000, 2, 29, 23, 59, 59, 999999999]]) ∧
    leap.fields = [2016, 12, 31, 23, 59, 59, 1000000000] ∧ SteppingRule leap second ∧
      ((stepping leap second).readings 2).1.map Instant.fields =
        [[2016, 12, 31, 23, 59, 59, 1000000000], [2017, 1, 1, 0, 0, 0, 0]] := by
  intro march back leap second
  exact ⟨⟨by decide +kernel, by decide, steppingRule march back, by decide +kernel⟩,
    by decide +kernel, steppingRule leap second, by decide +kernel⟩

end Clock

end Passbook
