import Passbook.Calendar.Date

/-!
# Instants

An *instant* is a day, a second of the day and a nanosecond. A nanosecond of
`10 ^ 9` or more lies in the leap second that follows the second. That may be
any second, though the calendar has leap seconds only at the end of a minute, and
only these can be asked for by date and time. Instants range over the years
`-262143` to `262142`.

A *span* is a signed number of nanoseconds. Away from leap seconds, instants
lie on a line (`Instant.position`), and adding a span moves along it. From
inside a leap second the line is entered at the side on which the leap second
is left; a span that stays inside, or goes back less than a second, only
changes the nanosecond.

* `Instant.add?`: `none` when the range is left.
-/

namespace Passbook

/-- The number of nanoseconds in a second. -/
def nanosPerSecond : Nat := 1000000000

/-- The number of seconds in a day. -/
def secondsPerDay : Nat := 86400

/-- The first day of the range of instants. -/
def firstDay : Int := yearStart (-262143)

/-- The last day of the range of instants. -/
def lastDay : Int := yearStart 262143 - 1

/-- A point in time: a day, a second of that day, and a nanosecond. -/
structure Instant where
  day : Int
  second : Nat
  nano : Nat
  day_ge : firstDay ≤ day := by decide
  day_le : day ≤ lastDay := by decide
  second_lt : second < secondsPerDay := by decide
  nano_lt : nano < 2 * nanosPerSecond := by decide
  deriving DecidableEq

/-- The length of the longest span: `2 ^ 63 - 1` milliseconds. -/
def longestSpan : Int := 9223372036854775807 * 1000000

/-- A signed length of time, in nanoseconds. -/
structure Span where
  nanos : Int
  nanos_ge : -longestSpan ≤ nanos := by decide
  nanos_le : nanos ≤ longestSpan := by decide
  deriving DecidableEq

namespace Span

/-- The span of a number of seconds, and nanoseconds on top of them. -/
def ofParts? (seconds : Int) (nanos : Nat) : Option Span :=
  let total := seconds * nanosPerSecond + nanos
  if h : nanos < nanosPerSecond ∧ -longestSpan ≤ total ∧ total ≤ longestSpan then
    some ⟨total, h.2.1, h.2.2⟩
  else none

end Span

namespace Instant

/-- The instant with the given day, second and nanosecond, if there is one. -/
def ofParts? (day : Int) (second nano : Nat) : Option Instant :=
  if h : firstDay ≤ day ∧ day ≤ lastDay ∧ second < secondsPerDay ∧
      nano < 2 * nanosPerSecond then
    some ⟨day, second, nano, h.1, h.2.1, h.2.2.1, h.2.2.2⟩
  else none

/-- The instant of a date and a time of the day, if there is one; only the last
    second of a minute is followed by a leap second. -/
def ofCivil? (date : Date) (hour minute second nano : Nat) : Option Instant :=
  if date.IsValid ∧ hour < 24 ∧ minute < 60 ∧ second < 60 ∧
      (nanosPerSecond ≤ nano → second = 59) then
    ofParts? date.toDay (hour * 3600 + minute * 60 + second) nano
  else none

/-- The date of an instant. -/
def date (i : Instant) : Date := .ofDay i.day

/-- The hour of the day. -/
def hour (i : Instant) : Nat := i.second / 3600

/-- The minute of the hour. -/
def minute (i : Instant) : Nat := i.second / 60 % 60

/-- The second of the minute; a leap second counts as the one before it. -/
def secondOfMinute (i : Instant) : Nat := i.second % 60

/-- Whether the instant lies in a leap second. -/
def IsLeap (i : Instant) : Prop := nanosPerSecond ≤ i.nano

instance : DecidablePred IsLeap := fun i => inferInstanceAs (Decidable (nanosPerSecond ≤ i.nano))

/-- The place of an instant on the line of nanoseconds. -/
def position (i : Instant) : Int :=
  (i.day * secondsPerDay + i.second) * nanosPerSecond + i.nano

/-- The instant at a place on the line of nanoseconds, if it is in range. -/
def ofPosition? (p : Int) : Option Instant :=
  let seconds := p / nanosPerSecond
  ofParts? (seconds / secondsPerDay) (seconds % secondsPerDay).toNat (p % nanosPerSecond).toNat

/-- The instant a span later, `none` if that is out of range. -/
def add? (i : Instant) (s : Span) : Option Instant :=
  if ¬ i.IsLeap then ofPosition? (i.position + s.nanos)
  else if 2 * nanosPerSecond ≤ i.nano + s.nanos then
    ofPosition? (i.position - nanosPerSecond + s.nanos)
  else if s.nanos ≤ -nanosPerSecond then ofPosition? (i.position + s.nanos)
  else ofParts? i.day i.second (i.nano + s.nanos).toNat

end Instant

end Passbook
