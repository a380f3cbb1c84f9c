import FieldTelemetry.Text.Digits
import FieldTelemetry.Time.Instant

/-!
# Timestamps

The text of an instant: date, `T`, time of day, as many fraction digits as are exact in groups of
three, and the offset from Universal Time, which is zero.

## Main definitions

* `Instant.render`: the text of an instant with a given spelling of the offset
* `Instant.zulu`, `Instant.numeric`: the text with `Z` and with `+00:00`
-/

namespace FieldTelemetry.Time

open Text

/-- The text of a year: four digits, and outside of these a sign and at least four digits. -/
def yearText (year : Int) : String :=
  if 0 ≤ year ∧ year ≤ 9999 then padded 4 year.natAbs
  else (if year < 0 then "-" else "+") ++ padded 4 year.natAbs

/-- The text of a date. -/
def Date.render (date : Date) : String :=
  yearText date.year ++ "-" ++ padded 2 date.month ++ "-" ++ padded 2 date.day

/-- The point and the fewest digits, in groups of three, that give the nanoseconds exactly. -/
def fractionText (nano : Nat) : String :=
  if nano = 0 then ""
  else if nano % 1000000 = 0 then "." ++ padded 3 (nano / 1000000)
  else if nano % 1000 = 0 then "." ++ padded 6 (nano / 1000)
  else "." ++ padded 9 nano

/-- The text of a time of day. -/
def TimeOfDay.render (time : TimeOfDay) : String :=
  padded 2 time.hour ++ ":" ++ padded 2 time.minute ++ ":" ++ padded 2 time.second
    ++ fractionText time.nano

/-- The text of an instant, with a spelling of the offset behind it. -/
def Instant.render (a : Instant) (offset : String) : String :=
  a.date.render ++ "T" ++ a.timeOfDay.render ++ offset

/-- The text of an instant with the letter for Universal Time. -/
def Instant.zulu (a : Instant) : String := a.render "Z"

/-- The text of an instant with the offset in figures. -/
def Instant.numeric (a : Instant) : String := a.render "+00:00"

end FieldTelemetry.Time
