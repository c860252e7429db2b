import Passbook.Calendar.Instant

/-!
# Clocks

A clock is read for the time of a transaction. A fixed clock always shows the
same instant. A stepping clock shows its cursor and moves it on by a step; the
next cursor is computed first, so a clock whose next cursor is out of range
cannot be read any more, and its cursor stays. Any other clock, such as the one
of the system, is given by what it shows, reading after reading.

* `Readings`: what a clock shows;
* `Clock.read`: the reading and the clock after it;
* `Clock.readings`: the first readings of a clock.
-/

namespace Passbook

/-- What a clock shows each time it is read, from reading `0` on. -/
def Readings : Type := Nat → Instant

namespace Readings

/-- What is shown after the first `n` readings. -/
def after (r : Readings) (n : Nat) : Readings := fun k => r (n + k)

/-- The same instant at every reading. -/
def always (now : Instant) : Readings := fun _ => now

/-- An instant stands for a time that does not move. -/
instance : Coe Instant Readings := ⟨always⟩

end Readings

/-- A source of instants. -/
inductive Clock
  /-- Always the same instant. -/
  | fixed (now : Instant)
  /-- A cursor that moves by a step at every reading. -/
  | stepping (next : Instant) (step : Span)
  /-- Any clock that can always be read, by what it shows. -/
  | given (shown : Readings)

namespace Clock

/-- Reads the clock; `none` if it cannot move on. -/
def read : Clock → Option (Instant × Clock)
  | fixed now => some (now, fixed now)
  | stepping next step => (next.add? step).map fun after => (next, stepping after step)
  | given shown => some (shown 0, given (shown.after 1))

/-- Reads the clock up to `n` times: the readings, and whether all of them
    succeeded. -/
def readings : Nat → Clock → List Instant × Bool
  | 0, _ => ([], true)
  | n + 1, c =>
    match c.read with
    | none => ([], false)
    | some (now, c) =>
      let (rest, all) := readings n c
      (now :: rest, all)

end Clock

end Passbook
