import FieldTelemetry.Proofs.Time.Calendar
import Mathlib.Algebra.BigOperators.Group.List.Basic
import Mathlib.Data.List.GetD
import Mathlib.Order.Iterate

/-!
# The order of dates

The dates of the calendar follow one another day by day, and their numbers count these days. So the
numbers are in the order of the dates, and no two dates have the same number.

## Main definitions

* `LeapYear`, `Date.Gregorian`: the rules of the calendar, one by one
* `Date.next`: the day after
* `Date.Before`: the order of dates by year, month and day

## Main results

* `Date.valid_iff_gregorian`: the calendar has the dates that keep to the rules
* `Date.dayNumber_next`, `Date.iterate_next`: numbers of dates count days
* `Date.dayNumber_lt_iff`, `Date.dayNumber_inj`: numbers are in the order of their dates
-/

namespace FieldTelemetry.Time

/-! ## The rules of the calendar -/

/-- A leap year can be divided by four, and by four hundred if it ends a century. -/
def LeapYear (year : Int) : Prop := 4 ∣ year ∧ (100 ∣ year → 400 ∣ year)

instance (year : Int) : Decidable (LeapYear year) := by unfold LeapYear; infer_instance

theorem isLeapYear_iff_leapYear (year : Int) : isLeapYear year = true ↔ LeapYear year := by
  rw [isLeapYear_iff, LeapYear]
  omega

namespace Date

/-- A date keeps to the rules of the calendar. -/
structure Gregorian (date : Date) : Prop where
  /-- There are twelve months. -/
  month : 1 ≤ date.month ∧ date.month ≤ 12
  /-- Days count from one. -/
  first : 1 ≤ date.day
  /-- No month has more than thirty-one days. -/
  long : date.day ≤ 31
  /-- April, June, September and November have thirty. -/
  short : date.month ∈ [4, 6, 9, 11] → date.day ≤ 30
  /-- February has twenty-eight or twenty-nine. -/
  february : date.month = 2 → date.day ≤ if LeapYear date.year then 29 else 28

/-- The length of a month by the rules. -/
theorem monthLength_eq (year : Int) {month : Nat} (h : 1 ≤ month ∧ month ≤ 12) :
    monthLength year month
      = if month = 2 then if LeapYear year then 29 else 28
        else if month ∈ [4, 6, 9, 11] then 30 else 31 := by
  obtain ⟨hpos, hle⟩ := h
  interval_cases month <;> simp [monthLength, monthLengths, isLeapYear_iff_leapYear]

/-- The calendar has the dates that keep to its rules. -/
theorem valid_iff_gregorian (date : Date) : date.Valid ↔ date.Gregorian := by
  constructor
  · intro h
    have hmonth := And.intro h.month_pos h.month_le
    obtain ⟨hfirst, hlast⟩ := h
    rw [monthLength_eq _ hmonth] at hlast
    refine ⟨hmonth, hfirst, ?_, fun hshort => ?_, fun hfebruary => ?_⟩
    · split_ifs at hlast <;> omega
    · have hother : date.month ≠ 2 := fun heq => by simp [heq] at hshort
      rwa [if_neg hother, if_pos hshort] at hlast
    · rwa [if_pos hfebruary] at hlast
  · rintro ⟨hmonth, hfirst, hlong, hshort, hfebruary⟩
    refine ⟨hfirst, ?_⟩
    rw [monthLength_eq _ hmonth]
    split_ifs with heq hleap hmem
    · simpa [hleap] using hfebruary heq
    · simpa [hleap] using hfebruary heq
    · exact hshort hmem
    · exact hlong

/-! ## Day after day -/

/-- The day after a date. -/
def next (date : Date) : Date :=
  if date.day < monthLength date.year date.month then { date with day := date.day + 1 }
  else if date.month < 12 then ⟨date.year, date.month + 1, 1⟩
  else ⟨date.year + 1, 1, 1⟩

theorem monthLength_pos (year : Int) {month : Nat} (h : 1 ≤ month ∧ month ≤ 12) :
    1 ≤ monthLength year month := by
  rw [monthLength_eq year h]
  split_ifs <;> omega

/-- The month after a month begins where that one ends. -/
theorem daysBeforeMonth_succ (year : Int) {month : Nat} (h : 1 ≤ month ∧ month ≤ 12) :
    daysBeforeMonth year (month + 1) = daysBeforeMonth year month + monthLength year month := by
  have hindex : month - 1 < (monthLengths year).length := by
    simp only [monthLengths, List.length_cons, List.length_nil]
    omega
  rw [daysBeforeMonth, daysBeforeMonth, monthLength, if_neg (by omega), ← List.sum_eq_foldr,
    ← List.sum_eq_foldr, List.getD_eq_getElem _ _ hindex, ← List.sum_take_succ _ _ hindex]
  congr 2
  omega

/-- All months together are as long as the year. -/
theorem daysBeforeMonth_thirteen (year : Int) :
    (daysBeforeMonth year 13 : Int) = yearLength year := by
  rw [← sum_monthLengths, daysBeforeMonth, ← List.sum_eq_foldr, List.take_of_length_le]
  simp [monthLengths]

/-- A month ends before every later month begins. -/
theorem daysBeforeMonth_add_le (year : Int) {month later : Nat} (h : 1 ≤ month)
    (hlt : month < later) (hlater : later ≤ 13) :
    daysBeforeMonth year month + monthLength year month ≤ daysBeforeMonth year later := by
  induction later, hlt using Nat.le_induction with
  | base => rw [daysBeforeMonth_succ year ⟨h, by omega⟩]
  | succ later hlt ih =>
    have hnext := daysBeforeMonth_succ year (show 1 ≤ later ∧ later ≤ 12 by omega)
    have := ih (by omega)
    omega

variable {a b : Date}

theorem valid_next (h : a.Valid) : a.next.Valid := by
  have hpos := h.month_pos
  have hle := h.month_le
  obtain ⟨hfirst, hlast⟩ := h
  rw [next]
  split_ifs with hday hmonth
  · exact ⟨by dsimp only; omega, hday⟩
  · exact ⟨le_rfl, monthLength_pos _ ⟨by dsimp only; omega, hmonth⟩⟩
  · exact ⟨le_rfl, monthLength_pos _ ⟨le_rfl, by dsimp only; omega⟩⟩

/-- The day after has the next number. -/
theorem dayNumber_next (h : a.Valid) : a.next.dayNumber = a.dayNumber + 1 := by
  have hpos := h.month_pos
  have hle := h.month_le
  obtain ⟨hfirst, hlast⟩ := h
  rw [next]
  split_ifs with hday hmonth
  · simp only [dayNumber]
    omega
  · have hmonths := daysBeforeMonth_succ a.year ⟨hpos, hle⟩
    simp only [dayNumber]
    omega
  · -- The last day of December is the last of the year.
    have hdecember : a.month = 12 := by omega
    have hmonths : daysBeforeMonth a.year 13 = daysBeforeMonth a.year 12 + monthLength a.year 12 :=
      daysBeforeMonth_succ a.year ⟨by omega, le_rfl⟩
    have hyear := daysBeforeYear_succ a.year
    have hwhole := daysBeforeMonth_thirteen a.year
    have hjanuary : daysBeforeMonth (a.year + 1) 1 = 0 := rfl
    simp only [dayNumber, hdecember, hjanuary] at *
    omega

/-! ## Dates in order -/

/-- One date comes before another: by year, then by month, then by day. -/
def Before (a b : Date) : Prop :=
  a.year < b.year
    ∨ a.year = b.year ∧ (a.month < b.month ∨ a.month = b.month ∧ a.day < b.day)

/-- Two dates are the same, or one of them comes before the other. -/
theorem before_trichotomy (a b : Date) : a.Before b ∨ a = b ∨ b.Before a := by
  obtain ⟨year, month, day⟩ := a
  obtain ⟨year', month', day'⟩ := b
  simp only [Before, mk.injEq]
  omega

/-- A date lies in its year. -/
theorem dayNumber_lt_of_valid (h : a.Valid) :
    a.dayNumber + origin < daysBeforeYear (a.year + 1)
      ∧ daysBeforeYear a.year ≤ a.dayNumber + origin := by
  have hmonths := daysBeforeMonth_add_le a.year h.month_pos
    (show a.month < 13 from Nat.lt_succ_of_le h.month_le) le_rfl
  have hwhole := daysBeforeMonth_thirteen a.year
  have hyear := daysBeforeYear_succ a.year
  obtain ⟨hfirst, hlast⟩ := h
  rw [dayNumber]
  omega

theorem daysBeforeYear_mono {year later : Int} (h : year ≤ later) :
    daysBeforeYear year ≤ daysBeforeYear later := by
  unfold daysBeforeYear
  omega

theorem dayNumber_lt_of_before (ha : a.Valid) (hb : b.Valid) (h : a.Before b) :
    a.dayNumber < b.dayNumber := by
  rcases h with hyear | ⟨hyear, hmonth | ⟨hmonth, hday⟩⟩
  · have hmono := daysBeforeYear_mono (show a.year + 1 ≤ b.year by omega)
    have hbefore := (dayNumber_lt_of_valid ha).1
    have hafter := (dayNumber_lt_of_valid hb).2
    omega
  · have hmonths := daysBeforeMonth_add_le a.year ha.month_pos hmonth
      (hb.month_le.trans (Nat.le_succ 12))
    have hfirst := hb.1
    have hlast := ha.2
    rw [dayNumber, dayNumber, ← hyear]
    omega
  · rw [dayNumber, dayNumber, hyear, hmonth]
    omega

/-- Numbers are in the order of their dates. -/
theorem dayNumber_lt_iff (ha : a.Valid) (hb : b.Valid) :
    a.dayNumber < b.dayNumber ↔ a.Before b := by
  refine ⟨fun hlt => ?_, dayNumber_lt_of_before ha hb⟩
  rcases before_trichotomy a b with hbefore | rfl | hafter
  · exact hbefore
  · exact absurd hlt (lt_irrefl _)
  · exact absurd (dayNumber_lt_of_before hb ha hafter) (not_lt_of_gt hlt)

/-- No two dates have the same number. -/
theorem dayNumber_inj (ha : a.Valid) (hb : b.Valid) (h : a.dayNumber = b.dayNumber) : a = b := by
  rcases before_trichotomy a b with hbefore | heq | hafter
  · exact absurd h (dayNumber_lt_of_before ha hb hbefore).ne
  · exact heq
  · exact absurd h (dayNumber_lt_of_before hb ha hafter).ne'

/-- A date is given back by its number. -/
theorem ofDayNumber_dayNumber (h : a.Valid) : ofDayNumber a.dayNumber = a :=
  dayNumber_inj (valid_ofDayNumber _) h (dayNumber_ofDayNumber _)

/-- So many days after the first day of 1970 comes the date with that number. -/
theorem iterate_next (days : Nat) : next^[days] ⟨1970, 1, 1⟩ = ofDayNumber days := by
  induction days with
  | zero => exact (ofDayNumber_dayNumber (by decide)).symm
  | succ days ih =>
    have hvalid := valid_ofDayNumber days
    rw [Function.iterate_succ_apply', ih]
    refine dayNumber_inj (valid_next hvalid) (valid_ofDayNumber _) ?_
    rw [dayNumber_next hvalid, dayNumber_ofDayNumber, dayNumber_ofDayNumber]
    rfl

end Date

end FieldTelemetry.Time
