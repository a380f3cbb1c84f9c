/-!
# The Gregorian calendar

Dates of the proleptic Gregorian calendar and their numbers, counted in days from the first day of
the year 1970.

## Main definitions

* `Date`: a day of the calendar
* `Date.dayNumber`, `Date.ofDayNumber`: a date as a number of days, and back
-/

namespace FieldTelemetry.Time

/-- Every fourth year has a leap day, but of the centuries only every fourth. -/
def isLeapYear (year : Int) : Bool := year % 4 == 0 && (year % 100 != 0 || year % 400 == 0)

/-- The lengths of the twelve months of a year. -/
def monthLengths (year : Int) : List Nat :=
  [31, if isLeapYear year then 29 else 28, 31, 30, 31, 30, 31, 31, 30, 31, 30, 31]

/-- The length of a month of a year, where months count from one. There is no other month. -/
def monthLength (year : Int) (month : Nat) : Nat :=
  if month = 0 then 0 else (monthLengths year).getD (month - 1) 0

/-- A date that the calendar may or may not have. -/
structure Date where
  /-- The year, with a year zero before the first. -/
  year : Int
  /-- The month, from one. -/
  month : Nat
  /-- The day of the month, from one. -/
  day : Nat
deriving DecidableEq, Repr

namespace Date

/-- The calendar has the date. -/
def Valid (date : Date) : Prop := 1 ≤ date.day ∧ date.day ≤ monthLength date.year date.month

instance (date : Date) : Decidable date.Valid := by unfold Valid; infer_instance

/-- The days from the first day of year zero to the first day of a year. -/
def daysBeforeYear (year : Int) : Int :=
  365 * year + (year + 3) / 4 - (year + 99) / 100 + (year + 399) / 400

/-- The days of a year before the first day of a month. -/
def daysBeforeMonth (year : Int) (month : Nat) : Nat :=
  ((monthLengths year).take (month - 1)).foldr (· + ·) 0

/-- The first day of 1970, counted from the first day of year zero. -/
def origin : Int := daysBeforeYear 1970

/-- The number of a date, counted from the first day of 1970. -/
def dayNumber (date : Date) : Int :=
  daysBeforeYear date.year - origin + daysBeforeMonth date.year date.month + (date.day - 1 : Int)

/-- The year of a day counted from the first day of year zero. Four hundred years have a fixed
number of days, and the quotient is off by one year at most. -/
def yearOfDay (day : Int) : Int :=
  let year := day * 400 / 146097
  if daysBeforeYear (year + 1) ≤ day then year + 1
  else if day < daysBeforeYear year then year - 1
  else year

/-- The month and the day of the month of a day of a year, going through the months from `month`
on. -/
def monthOfDay : (month : Nat) → (lengths : List Nat) → (day : Nat) → Nat × Nat
  | month, [], day => (month, day + 1)
  | month, [_], day => (month, day + 1)
  | month, length :: lengths, day =>
    if day < length then (month, day + 1) else monthOfDay (month + 1) lengths (day - length)

/-- The date with a number. -/
def ofDayNumber (number : Int) : Date :=
  let day := number + origin
  let year := yearOfDay day
  let (month, dayOfMonth) := monthOfDay 1 (monthLengths year) (day - daysBeforeYear year).toNat
  ⟨year, month, dayOfMonth⟩

end Date

end FieldTelemetry.Time
