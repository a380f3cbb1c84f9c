import FieldTelemetry.Time.Calendar

/-!
# Instants

An instant is a second of Universal Time and a part of it in nanoseconds. The last second of a
minute may be two seconds long; its second half is the leap second. The years of an instant reach
from -262143 to 262142.

## Main definitions

* `Instant`: an instant
* `Instant.since`: the nanoseconds between two instants
* `Instant.addSeconds?`, `Instant.ofMillis?`: instants by arithmetic
* `TimeOfDay`, `Instant.ofDateTime?`: instants by date and time of day
-/

namespace FieldTelemetry.Time

/-- Nanoseconds of a second. -/
def nanosPerSecond : Nat := 1000000000

/-- Seconds of a day. -/
def secondsPerDay : Nat := 86400

/-- The first second of the first year. -/
def firstSecond : Int := Date.dayNumber ⟨-262143, 1, 1⟩ * secondsPerDay

/-- The last second of the last year. -/
def lastSecond : Int := Date.dayNumber ⟨262143, 1, 1⟩ * secondsPerDay - 1

/-- An instant of Universal Time. -/
structure Instant where
  /-- Seconds from the first second of 1970. -/
  second : Int
  /-- Nanoseconds into the second, from one thousand million on in its leap second. -/
  nano : Nat
  /-- A second with its leap second has two thousand million nanoseconds. -/
  nano_lt : nano < 2 * nanosPerSecond
  /-- Only the last second of a minute has a leap second. -/
  leap_at_end : nanosPerSecond ≤ nano → second % 60 = 59
  /-- The years are bounded. -/
  in_range : firstSecond ≤ second ∧ second ≤ lastSecond
deriving DecidableEq

namespace Instant

/-- The instant with a second and nanoseconds, if there is one. -/
def make? (second : Int) (nano : Nat) : Option Instant :=
  if h : nano < 2 * nanosPerSecond ∧ (nanosPerSecond ≤ nano → second % 60 = 59)
      ∧ firstSecond ≤ second ∧ second ≤ lastSecond then
    some ⟨second, nano, h.1, h.2.1, h.2.2⟩
  else none

/-- The order of instants: by second, then by nanosecond. -/
def Before (a b : Instant) : Prop := a.second < b.second ∨ (a.second = b.second ∧ a.nano < b.nano)

instance : LT Instant := ⟨Before⟩

instance : LE Instant := ⟨fun a b => ¬ Before b a⟩

instance (a b : Instant) : Decidable (a < b) :=
  inferInstanceAs (Decidable (a.second < b.second ∨ (a.second = b.second ∧ a.nano < b.nano)))

instance (a b : Instant) : Decidable (a ≤ b) := inferInstanceAs (Decidable (¬ b < a))

/-- Nanoseconds from the first second of 1970. -/
def nanos (a : Instant) : Int := a.second * nanosPerSecond + a.nano

/-- The second of the day. -/
def secondOfDay (a : Instant) : Int := a.second % secondsPerDay

/-- The instant lies in a leap second. -/
def InLeapSecond (a : Instant) : Prop := nanosPerSecond ≤ a.nano

instance (a : Instant) : Decidable a.InLeapSecond :=
  inferInstanceAs (Decidable (nanosPerSecond ≤ a.nano))

/-- Nanoseconds from `b` to `a`. -/
def since (a b : Instant) : Int :=
  -- A leap second is counted when the other time is later on the day, whatever the dates are.
  if b.secondOfDay < a.secondOfDay ∧ b.InLeapSecond then a.nanos - b.nanos + nanosPerSecond
  else if a.secondOfDay < b.secondOfDay ∧ a.InLeapSecond then a.nanos - b.nanos - nanosPerSecond
  else a.nanos - b.nanos

/-- The instant with a number of nanoseconds from the first second of 1970. -/
def ofNanos? (nanos : Int) : Option Instant :=
  make? (nanos / nanosPerSecond) (nanos % nanosPerSecond).toNat

/-- The instant with a number of milliseconds from the first second of 1970. -/
def ofMillis? (millis : Int) : Option Instant := ofNanos? (millis * 1000000)

/-- Whole milliseconds from the first second of 1970. -/
def millis (a : Instant) : Int := a.nanos / 1000000

/-- The instant a number of seconds later. -/
def addSeconds? (a : Instant) (seconds : Int) : Option Instant :=
  ofNanos? (a.nanos + seconds * nanosPerSecond)

/-- The first second of 1970. -/
def epoch : Instant := ⟨0, 0, by decide, by decide, by decide⟩

instance : Inhabited Instant := ⟨epoch⟩

end Instant

/-- Hour, minute, second and nanosecond of a day. -/
structure TimeOfDay where
  /-- The hour. -/
  hour : Nat
  /-- The minute. -/
  minute : Nat
  /-- The second, sixty in a leap second. -/
  second : Nat
  /-- The nanosecond. -/
  nano : Nat
deriving DecidableEq, Repr

/-- A day has the time. Every minute may end in a leap second. -/
def TimeOfDay.Valid (time : TimeOfDay) : Prop :=
  time.hour < 24 ∧ time.minute < 60 ∧ time.second ≤ 60 ∧ time.nano < nanosPerSecond

instance (time : TimeOfDay) : Decidable time.Valid := by unfold TimeOfDay.Valid; infer_instance

namespace Instant

/-- The instant of a date and a time of day on a clock that is `offset` seconds ahead of Universal
Time. The offset is in whole minutes where the time is a leap second. -/
def ofDateTime? (date : Date) (time : TimeOfDay) (offset : Int) : Option Instant :=
  if date.Valid ∧ time.Valid then
    let start := date.dayNumber * secondsPerDay + time.hour * 3600 + time.minute * 60 - offset
    if time.second = 60 then make? (start + 59) (nanosPerSecond + time.nano)
    else make? (start + time.second) time.nano
  else none

/-- The date of an instant. -/
def date (a : Instant) : Date := .ofDayNumber (a.second / secondsPerDay)

/-- The time of day of an instant. -/
def timeOfDay (a : Instant) : TimeOfDay :=
  let second := (a.second % secondsPerDay).toNat
  let leap := a.nano / nanosPerSecond
  ⟨second / 3600, second / 60 % 60, second % 60 + leap, a.nano % nanosPerSecond⟩

end Instant

end FieldTelemetry.Time
