import FieldTelemetry.Time.Instant
import Mathlib.Tactic.IntervalCases
import Mathlib.Tactic.Linarith

/-!
# Dates and their numbers

Every number of a day belongs to exactly one date of the calendar, and an instant is given back by
its date and its time of day.

## Main results

* `Date.dayNumber_ofDayNumber`, `Date.valid_ofDayNumber`: the date with a number
* `Instant.ofDateTime?_date_timeOfDay`: an instant from its date and time of day
-/

namespace FieldTelemetry.Time

/-! ## Years -/

/-- The number of days of a year. -/
def yearLength (year : Int) : Int := if isLeapYear year then 366 else 365

theorem sum_monthLengths (year : Int) : ((monthLengths year).sum : Int) = yearLength year := by
  unfold monthLengths yearLength
  split <;> rfl

theorem isLeapYear_iff (year : Int) :
    isLeapYear year = true ↔ year % 4 = 0 ∧ (year % 100 ≠ 0 ∨ year % 400 = 0) := by
  simp [isLeapYear]

theorem not_isLeapYear_iff (year : Int) :
    ¬ isLeapYear year = true ↔ year % 4 ≠ 0 ∨ (year % 100 = 0 ∧ year % 400 ≠ 0) := by
  rw [isLeapYear_iff]
  omega

/-- A year is as long as its number of days. -/
theorem daysBeforeYear_succ (year : Int) :
    Date.daysBeforeYear (year + 1) = Date.daysBeforeYear year + yearLength year := by
  unfold Date.daysBeforeYear yearLength
  split
  · rename_i h
    obtain ⟨h4, h100 | h400⟩ := (isLeapYear_iff year).mp h <;> omega
  · rename_i h
    obtain h4 | ⟨h100, h400⟩ := (not_isLeapYear_iff year).mp h <;> omega

/-- The year of a day begins with it or before it, and the next one begins later. -/
theorem yearOfDay_spec (day : Int) :
    Date.daysBeforeYear (Date.yearOfDay day) ≤ day
      ∧ day < Date.daysBeforeYear (Date.yearOfDay day + 1) := by
  unfold Date.yearOfDay
  dsimp only
  -- The estimate is off by one year at most.
  have hlow : Date.daysBeforeYear (day * 400 / 146097 - 1) ≤ day := by
    unfold Date.daysBeforeYear; omega
  have hhigh : day < Date.daysBeforeYear (day * 400 / 146097 + 1 + 1) := by
    unfold Date.daysBeforeYear; omega
  split
  · rename_i h
    exact ⟨h, hhigh⟩
  · rename_i h
    split
    · rename_i h'
      refine ⟨hlow, ?_⟩
      rwa [sub_add_cancel]
    · rename_i h'
      exact ⟨not_lt.mp h', not_le.mp h⟩

/-! ## Months -/

/-- Going through the months finds the one with a day, and the day of it. -/
theorem monthOfDay_spec (month : Nat) (lengths : List Nat) (day : Nat) (h : day < lengths.sum) :
    ∃ i, (Date.monthOfDay month lengths day).1 = month + i
      ∧ 1 ≤ (Date.monthOfDay month lengths day).2
      ∧ (Date.monthOfDay month lengths day).2 ≤ lengths.getD i 0
      ∧ (lengths.take i).sum + ((Date.monthOfDay month lengths day).2 - 1) = day := by
  -- One case for each way in which the search goes on or ends.
  fun_induction Date.monthOfDay month lengths day with
  | case1 month day => simp at h
  | case2 month day length => exact ⟨0, by simp at h ⊢; omega⟩
  | case3 month day length lengths hne hlt => exact ⟨0, by simp; omega⟩
  | case4 month day length lengths hne hlt ih =>
    obtain ⟨i, h1, h2, h3, h4⟩ := ih (by simp at h; omega)
    refine ⟨i + 1, by omega, h2, by simpa using h3, ?_⟩
    simp only [List.take_succ_cons, List.sum_cons]
    omega

/-! ## Dates -/

namespace Date

theorem Valid.month_pos {date : Date} (h : date.Valid) : 1 ≤ date.month := by
  rcases Nat.eq_zero_or_pos date.month with hzero | hpos
  · have hlength : monthLength date.year date.month = 0 := if_pos hzero
    have := h.1.trans h.2
    omega
  · exact hpos

theorem Valid.month_le {date : Date} (h : date.Valid) : date.month ≤ 12 := by
  by_contra hlate
  -- A month past the twelfth would have no days.
  have hlength : monthLength date.year date.month = 0 := by
    rw [monthLength, if_neg (by omega), List.getD_eq_getElem?_getD, List.getElem?_eq_none]
    · rfl
    · simp only [monthLengths, List.length_cons, List.length_nil]
      omega
  have := h.1.trans h.2
  omega

theorem Valid.day_le {date : Date} (h : date.Valid) : date.day ≤ 31 := by
  refine h.2.trans ?_
  unfold monthLength
  split
  · omega
  · rw [List.getD_eq_getElem?_getD]
    cases hget : (monthLengths date.year)[date.month - 1]? with
    | none => simp
    | some n =>
      have hmem := List.mem_of_getElem? hget
      simp only [monthLengths, List.mem_cons, List.not_mem_nil, or_false] at hmem
      simp only [Option.getD_some]
      split at hmem <;> omega

theorem ofDayNumber_spec (number : Int) :
    (ofDayNumber number).Valid ∧ (ofDayNumber number).dayNumber = number := by
  obtain ⟨hlow, hhigh⟩ := yearOfDay_spec (number + origin)
  have hyear := daysBeforeYear_succ (yearOfDay (number + origin))
  have hsum := sum_monthLengths (yearOfDay (number + origin))
  obtain ⟨i, hmonth, hpos, hle, hday⟩ := monthOfDay_spec 1
    (monthLengths (yearOfDay (number + origin)))
    (number + origin - daysBeforeYear (yearOfDay (number + origin))).toNat (by omega)
  -- The months are counted from one, and their lengths from zero.
  have hmonth' : (ofDayNumber number).month = i + 1 := by
    rw [Nat.add_comm]
    exact hmonth
  refine ⟨⟨hpos, ?_⟩, ?_⟩
  · rw [monthLength, hmonth', if_neg (by omega), Nat.add_sub_cancel]
    exact hle
  · rw [dayNumber, daysBeforeMonth, hmonth', Nat.add_sub_cancel, ← List.sum_eq_foldr]
    have hnum : ((List.take i (monthLengths (ofDayNumber number).year)).sum : Int)
        + ((ofDayNumber number).day - 1 : Int)
          = number + origin - daysBeforeYear (yearOfDay (number + origin)) := by
      have hcast : ((ofDayNumber number).day - 1 : Int)
          = (((ofDayNumber number).day - 1 : Nat) : Int) := by
        have : 1 ≤ (ofDayNumber number).day := hpos
        omega
      rw [hcast]
      have : (List.take i (monthLengths (ofDayNumber number).year)).sum
          + ((ofDayNumber number).day - 1)
            = (number + origin - daysBeforeYear (yearOfDay (number + origin))).toNat := hday
      omega
    have hyear' : (ofDayNumber number).year = yearOfDay (number + origin) := rfl
    rw [hyear'] at hnum ⊢
    omega

/-- The calendar has the date of every number. -/
theorem valid_ofDayNumber (number : Int) : (ofDayNumber number).Valid := (ofDayNumber_spec number).1

/-- The date of a number has that number. -/
theorem dayNumber_ofDayNumber (number : Int) : (ofDayNumber number).dayNumber = number :=
  (ofDayNumber_spec number).2

end Date

/-! ## Instants -/

namespace Instant

theorem make?_self (a : Instant) : make? a.second a.nano = some a := by
  rw [make?, dif_pos ⟨a.nano_lt, a.leap_at_end, a.in_range⟩]

theorem make?_eq_some {second : Int} {nano : Nat} {a : Instant} (h : make? second nano = some a) :
    a.second = second ∧ a.nano = nano := by
  rw [make?] at h
  split at h
  · cases h
    exact ⟨rfl, rfl⟩
  · cases h

theorem le_iff (a b : Instant) :
    a ≤ b ↔ a.second < b.second ∨ (a.second = b.second ∧ a.nano ≤ b.nano) := by
  change ¬ Before b a ↔ _
  rw [Before]
  omega

protected theorem le_trans {a b c : Instant} (h : a ≤ b) (h' : b ≤ c) : a ≤ c := by
  rw [le_iff] at *
  omega

protected theorem le_refl (a : Instant) : a ≤ a := by
  rw [le_iff]
  exact .inr ⟨rfl, le_rfl⟩

protected theorem le_antisymm {a b : Instant} (h : a ≤ b) (h' : b ≤ a) : a = b := by
  rw [le_iff] at h h'
  obtain ⟨hsecond, hnano⟩ : a.second = b.second ∧ a.nano = b.nano := by omega
  cases a
  cases b
  cases hsecond
  cases hnano
  rfl

protected theorem not_le {a b : Instant} : ¬ a ≤ b ↔ b < a := Classical.not_not

protected theorem le_of_not_le {a b : Instant} (h : ¬ a ≤ b) : b ≤ a := by
  rw [le_iff] at *
  omega

/-- Outside of a leap second, seconds are added to the second alone. -/
theorem addSeconds?_eq {a : Instant} (h : a.nano < nanosPerSecond) (seconds : Int) :
    a.addSeconds? seconds = make? (a.second + seconds) a.nano := by
  rw [nanosPerSecond] at h
  rw [addSeconds?, ofNanos?, nanos, nanosPerSecond]
  -- Seconds and nanoseconds are put together and taken apart again.
  congr 1 <;> omega

/-- Adding no seconds changes nothing outside of a leap second. -/
theorem addSeconds?_zero {a : Instant} (h : a.nano < nanosPerSecond) :
    a.addSeconds? 0 = some a := by
  rw [addSeconds?_eq h, add_zero, make?_self]

theorem addSeconds?_eq_none_iff {a : Instant} (h : a.nano < nanosPerSecond) {seconds : Int} :
    a.addSeconds? seconds = none
      ↔ ¬ (firstSecond ≤ a.second + seconds ∧ a.second + seconds ≤ lastSecond) := by
  rw [addSeconds?_eq h, make?, dite_eq_right_iff]
  constructor
  · intro hnone hrange
    have hleap : nanosPerSecond ≤ a.nano → (a.second + seconds) % 60 = 59 := by omega
    exact absurd (hnone ⟨a.nano_lt, hleap, hrange⟩) (Option.some_ne_none _)
  · intro hrange hvalid
    exact absurd hvalid.2.2 hrange

theorem timeOfDay_valid (a : Instant) : a.timeOfDay.Valid := by
  have h1 := a.nano_lt
  have h2 := a.leap_at_end
  simp only [TimeOfDay.Valid, timeOfDay, nanosPerSecond, secondsPerDay] at *
  have h4 : a.second % 86400 % 60 = a.second % 60 := by omega
  refine ⟨?_, ?_, ?_, ?_⟩ <;> omega

theorem timeOfDay_second (a : Instant) :
    a.timeOfDay.second = (a.second % 86400).toNat % 60 + a.nano / 1000000000 := rfl

/-- The time of day counts the seconds of the day. -/
theorem seconds_timeOfDay (a : Instant) :
    (a.timeOfDay.hour * 3600 + a.timeOfDay.minute * 60 + a.timeOfDay.second : Int)
      = a.second % 86400 + (a.nano / 1000000000 : Nat) := by
  have hhour : a.timeOfDay.hour = (a.second % 86400).toNat / 3600 := rfl
  have hminute : a.timeOfDay.minute = (a.second % 86400).toNat / 60 % 60 := rfl
  rw [hhour, hminute, timeOfDay_second]
  omega

/-- An instant is given back by its date and its time of day. -/
theorem ofDateTime?_date_timeOfDay (a : Instant) :
    ofDateTime? a.date a.timeOfDay 0 = some a := by
  have hnumber : a.date.dayNumber = a.second / 86400 := Date.dayNumber_ofDayNumber _
  have hseconds := seconds_timeOfDay a
  have hsecond := timeOfDay_second a
  have hnano : a.timeOfDay.nano = a.nano % 1000000000 := rfl
  have h1 : a.nano < 2 * 1000000000 := a.nano_lt
  have h2 : 1000000000 ≤ a.nano → a.second % 60 = 59 := a.leap_at_end
  have hday : (secondsPerDay : Int) = 86400 := rfl
  rw [ofDateTime?, if_pos ⟨Date.valid_ofDayNumber _, a.timeOfDay_valid⟩, hnumber, hday, hnano]
  -- A leap second is told from the one before by its nanoseconds.
  by_cases hleap : 1000000000 ≤ a.nano
  · have hminute : a.second % 60 = 59 := h2 hleap
    rw [if_pos (by omega), ← make?_self a, nanosPerSecond]
    congr 1 <;> omega
  · rw [if_neg (by omega), ← make?_self a]
    congr 1 <;> omega

end Instant

end FieldTelemetry.Time
