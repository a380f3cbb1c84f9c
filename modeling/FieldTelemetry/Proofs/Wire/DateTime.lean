import FieldTelemetry.Proofs.Time.Gregorian
import FieldTelemetry.Proofs.Wire.CaptureTime

/-!
# Instants by their digits

A date and a time of day of six digits each denote the instant that they spell. The digits exist for
exactly the whole seconds from the year 2000 on, they are in the order of the instants, and an
instant is given back by its digits.

## Main definitions

* `timeOf`: the time of day of six digits
* `Spelled`: digits that exist
* `digitsOfDate`, `digitsOfTime`: the digits of a date and of a time of day

## Main results

* `composeDateTime?_eq_some_iff`: which instant some digits denote, if they denote one
* `composeDateTime?_lt_iff`: digits are in the order of their instants
* `composeDateTime?_digits`: an instant from its digits
* `composeDateTime?_denotes`: all about dates and times of day of six digits
-/

namespace FieldTelemetry.Wire

open Time

/-! ## Digits that exist -/

/-- The time of day of six digits. -/
def timeOf (time : UInt32) : TimeOfDay :=
  ⟨time.toNat / 10000, time.toNat / 100 % 100, time.toNat % 100, 0⟩

/-- A day has the time of day, and the calendar has the date, no later than an instant can be. -/
structure Spelled (date time : UInt32) : Prop where
  /-- A day has twenty-four hours. -/
  hour : time.toNat / 10000 < 24
  /-- An hour has sixty minutes. -/
  minute : time.toNat / 100 % 100 < 60
  /-- A minute has sixty seconds. No digits spell a leap second. -/
  second : time.toNat % 100 < 60
  /-- The date keeps to the rules of the calendar. -/
  gregorian : (dateOf date).Gregorian
  /-- Instants end with this year. -/
  year : 2000 + date.toNat / 10000 ≤ 262142

variable {date time date' time' : UInt32} {a a' : Instant}

namespace Spelled

theorem valid (h : Spelled date time) : (dateOf date).Valid :=
  (Date.valid_iff_gregorian _).mpr h.gregorian

theorem secondsOf_lt (h : Spelled date time) : secondsOf time < 86400 := by
  obtain ⟨hhour, hminute, hsecond, -, -⟩ := h
  rw [secondsOf]
  omega

end Spelled

/-- The seconds of a date belong to instants up to the last year. -/
theorem le_lastSecond_iff {d : Date} (h : d.Valid) (seconds : Int)
    (hseconds : 0 ≤ seconds ∧ seconds < 86400) :
    d.dayNumber * secondsPerDay + seconds ≤ lastSecond ↔ d.year ≤ 262142 := by
  have hend : (⟨262143, 1, 1⟩ : Date).Valid := by decide
  have hlast : lastSecond = Date.dayNumber ⟨262143, 1, 1⟩ * 86400 - 1 := rfl
  have hbefore : d.dayNumber < Date.dayNumber ⟨262143, 1, 1⟩ ↔ d.year ≤ 262142 := by
    have hfirst := h.1
    have hmonth := h.month_pos
    rw [Date.dayNumber_lt_iff h hend, Date.Before]
    dsimp only
    omega
  rw [← hbefore, hlast, secondsPerDay]
  omega

theorem composeDateTime?_eq (date time : UInt32) : composeDateTime? date time
    = if time.toNat % 100 < 60 then Instant.ofDateTime? (dateOf date) (timeOf time) 0
      else none := rfl

/-- The digits that exist denote the instant that they spell, and all others denote none. -/
theorem composeDateTime?_eq_some_iff : composeDateTime? date time = some a
    ↔ Spelled date time ∧ a.nano = 0
      ∧ a.second = (dateOf date).dayNumber * secondsPerDay + secondsOf time := by
  constructor
  · intro h
    obtain ⟨hvalid, hnano, hsecond⟩ := composeDateTime?_eq_some h
    refine ⟨?_, hnano, hsecond⟩
    rw [composeDateTime?_eq, Option.ite_none_right_eq_some, Instant.ofDateTime?,
      Option.ite_none_right_eq_some] at h
    obtain ⟨hsixty, ⟨-, hhour, hminute, -⟩, -⟩ := h
    have hhour' : time.toNat / 10000 < 24 := hhour
    have hminute' : time.toNat / 100 % 100 < 60 := hminute
    have hseconds : secondsOf time < 86400 := by
      rw [secondsOf]
      omega
    have hyear : (dateOf date).year = 2000 + (date.toNat / 10000 : Nat) := rfl
    have hlate := a.in_range.2
    rw [hsecond, le_lastSecond_iff hvalid _ ⟨by omega, by omega⟩] at hlate
    exact ⟨hhour', hminute', hsixty, (Date.valid_iff_gregorian _).mp hvalid, by omega⟩
  · rintro ⟨h, hnano, hsecond⟩
    have htime : (timeOf time).Valid :=
      ⟨h.hour, h.minute, h.second.le, show 0 < nanosPerSecond by decide⟩
    rw [composeDateTime?_eq, if_pos h.second, Instant.ofDateTime?, if_pos ⟨h.valid, htime⟩]
    refine (if_neg h.second.ne).trans ?_
    rw [← Instant.make?_self a, hnano, hsecond, secondsOf, timeOf]
    congr 1
    push_cast
    omega

/-- There is an instant for the digits that exist. -/
theorem Spelled.exists_instant (h : Spelled date time) : ∃ a : Instant, a.nano = 0
    ∧ a.second = (dateOf date).dayNumber * secondsPerDay + secondsOf time := by
  have hyear : (dateOf date).year = 2000 + (date.toNat / 10000 : Nat) := rfl
  have hlast := (le_lastSecond_iff h.valid (secondsOf time)
    ⟨by omega, by exact_mod_cast h.secondsOf_lt⟩).mpr (by have := h.year; omega)
  have hfirst : firstSecond ≤ (dateOf date).dayNumber * secondsPerDay + secondsOf time := by
    have hstart : (⟨-262143, 1, 1⟩ : Date).Valid := by decide
    have hbefore := Date.dayNumber_lt_of_before hstart h.valid (.inl (by dsimp only; omega))
    rw [firstSecond, secondsPerDay]
    omega
  exact ⟨⟨_, 0, by decide, fun hleap => absurd hleap (by decide), hfirst, hlast⟩, rfl, rfl⟩

/-- Exactly the digits that exist denote an instant. -/
theorem composeDateTime?_isSome_iff (date time : UInt32) :
    (composeDateTime? date time).isSome ↔ Spelled date time := by
  rw [Option.isSome_iff_exists]
  constructor
  · rintro ⟨a, ha⟩
    exact (composeDateTime?_eq_some_iff.mp ha).1
  · intro h
    obtain ⟨a, ha⟩ := h.exists_instant
    exact ⟨a, composeDateTime?_eq_some_iff.mpr ⟨h, ha⟩⟩

/-! ## What the digits spell -/

/-- An instant has the date and the time of day of its digits. -/
theorem spells_of_composeDateTime? (h : composeDateTime? date time = some a) :
    a.date = dateOf date ∧ a.timeOfDay = timeOf time := by
  obtain ⟨hspelled, hnano, hsecond⟩ := composeDateTime?_eq_some_iff.mp h
  have hseconds := hspelled.secondsOf_lt
  rw [secondsPerDay] at hsecond
  constructor
  · have hday : a.second / secondsPerDay = (dateOf date).dayNumber := by
      rw [secondsPerDay]
      omega
    rw [Instant.date, hday, Date.ofDayNumber_dayNumber hspelled.valid]
  · have hday : (a.second % secondsPerDay).toNat = secondsOf time := by
      rw [secondsPerDay]
      omega
    obtain ⟨hhour, hminute, hsixty, -, -⟩ := hspelled
    rw [Instant.timeOfDay, hday, hnano, Nat.zero_div, timeOf, secondsOf, TimeOfDay.mk.injEq]
    refine ⟨?_, ?_, ?_, rfl⟩ <;> omega

/-- An instant is so many days after the first one of 1970. -/
theorem second_of_composeDateTime? (h : composeDateTime? date time = some a) :
    ∃ days : Nat, dateOf date = Date.next^[days] ⟨1970, 1, 1⟩
      ∧ a.second = days * secondsPerDay + secondsOf time := by
  obtain ⟨hspelled, -, hsecond⟩ := composeDateTime?_eq_some_iff.mp h
  have hvalid := hspelled.valid
  have hstart : (⟨1970, 1, 1⟩ : Date).Valid := by decide
  have hyear : (dateOf date).year = 2000 + (date.toNat / 10000 : Nat) := rfl
  have hafter := Date.dayNumber_lt_of_before hstart hvalid (.inl (by dsimp only; omega))
  have hzero : Date.dayNumber ⟨1970, 1, 1⟩ = 0 := rfl
  have hdays : ((dateOf date).dayNumber.toNat : Int) = (dateOf date).dayNumber := by omega
  refine ⟨(dateOf date).dayNumber.toNat, ?_, ?_⟩
  · rw [Date.iterate_next, hdays, Date.ofDayNumber_dayNumber hvalid]
  · rw [hdays, hsecond]

/-! ## Digits in order -/

/-- Six digits are in the order of their dates. -/
theorem dateOf_before_iff : (dateOf date).Before (dateOf date') ↔ date < date' := by
  rw [UInt32.lt_iff_toNat_lt, Date.Before, dateOf, dateOf]
  dsimp only
  omega

/-- Six digits are in the order of their seconds. -/
theorem secondsOf_lt_iff (h : Spelled date time) (h' : Spelled date' time') :
    secondsOf time < secondsOf time' ↔ time < time' := by
  obtain ⟨hhour, hminute, hsecond, -, -⟩ := h
  obtain ⟨hhour', hminute', hsecond', -, -⟩ := h'
  have hsplit (n : Nat) : n / 100 / 100 = n / 10000 := Nat.div_div_eq_div_mul n 100 100
  have htime := hsplit time.toNat
  have htime' := hsplit time'.toNat
  rw [UInt32.lt_iff_toNat_lt, secondsOf, secondsOf]
  omega

/-- Digits are in the order of their instants, the date first. -/
theorem composeDateTime?_lt_iff (h : composeDateTime? date time = some a)
    (h' : composeDateTime? date' time' = some a') :
    a < a' ↔ date < date' ∨ date = date' ∧ time < time' := by
  obtain ⟨hspelled, hnano, hsecond⟩ := composeDateTime?_eq_some_iff.mp h
  obtain ⟨hspelled', hnano', hsecond'⟩ := composeDateTime?_eq_some_iff.mp h'
  have hday := hspelled.secondsOf_lt
  have hday' := hspelled'.secondsOf_lt
  have hdate := Date.dayNumber_lt_iff hspelled.valid hspelled'.valid
  have hdate' := Date.dayNumber_lt_iff hspelled'.valid hspelled.valid
  rw [dateOf_before_iff] at hdate hdate'
  rw [← secondsOf_lt_iff hspelled hspelled', ← hdate]
  have hlt : a < a' ↔ a.second < a'.second := by
    change a.second < a'.second ∨ a.second = a'.second ∧ a.nano < a'.nano ↔ _
    omega
  have heq : date = date' ↔ (dateOf date).dayNumber = (dateOf date').dayNumber := by
    rw [← UInt32.toNat_inj]
    rw [UInt32.lt_iff_toNat_lt] at hdate hdate'
    omega
  rw [hlt, heq, hsecond, hsecond', secondsPerDay]
  omega

/-- No two pairs of digits denote the same instant. -/
theorem composeDateTime?_inj (h : composeDateTime? date time = some a)
    (h' : composeDateTime? date' time' = some a) : date = date' ∧ time = time' := by
  have hself : ¬ a < a := by
    change ¬ (a.second < a.second ∨ a.second = a.second ∧ a.nano < a.nano)
    omega
  have hlt := (composeDateTime?_lt_iff h h').not.mp hself
  have hlt' := (composeDateTime?_lt_iff h' h).not.mp hself
  simp only [UInt32.lt_iff_toNat_lt, ← UInt32.toNat_inj] at hlt hlt' ⊢
  omega

/-! ## Digits of instants -/

/-- The digits of a date. They are six up to the year 2099. -/
def digitsOfDate (date : Date) : UInt32 :=
  .ofNat ((date.year - 2000).toNat * 10000 + date.month * 100 + date.day)

/-- The six digits of a time of day. -/
def digitsOfTime (time : TimeOfDay) : UInt32 :=
  .ofNat (time.hour * 10000 + time.minute * 100 + time.second)

theorem dateOf_digitsOfDate {d : Date} (h : d.Valid) (hyear : 2000 ≤ d.year ∧ d.year ≤ 262142) :
    dateOf (digitsOfDate d) = d := by
  obtain ⟨⟨-, hmonth⟩, -, hday, -, -⟩ := (Date.valid_iff_gregorian d).mp h
  have hdigits : (digitsOfDate d).toNat
      = (d.year - 2000).toNat * 10000 + d.month * 100 + d.day :=
    UInt32.toNat_ofNat_of_lt' (by rw [UInt32.size]; omega)
  rw [dateOf, hdigits]
  obtain ⟨year, month, day⟩ := d
  dsimp only at *
  rw [Date.mk.injEq]
  omega

theorem timeOf_digitsOfTime {t : TimeOfDay} (h : t.Valid) (hnano : t.nano = 0) :
    timeOf (digitsOfTime t) = t := by
  obtain ⟨hhour, hminute, hsecond, -⟩ := h
  have hdigits : (digitsOfTime t).toNat = t.hour * 10000 + t.minute * 100 + t.second :=
    UInt32.toNat_ofNat_of_lt' (by rw [UInt32.size]; omega)
  rw [timeOf, hdigits]
  obtain ⟨hour, minute, second, nano⟩ := t
  dsimp only at *
  rw [TimeOfDay.mk.injEq]
  omega

/-- A whole second from the year 2000 on is given back by its digits. -/
theorem composeDateTime?_digits (hnano : a.nano = 0) (hyear : 2000 ≤ a.date.year) :
    composeDateTime? (digitsOfDate a.date) (digitsOfTime a.timeOfDay) = some a := by
  have hdate : a.date.Valid := Date.valid_ofDayNumber _
  have hnumber : a.date.dayNumber = a.second / 86400 := Date.dayNumber_ofDayNumber _
  have hlast : a.date.year ≤ 262142 := by
    have hlate := a.in_range.2
    rw [← le_lastSecond_iff hdate (a.second % 86400) (by omega), hnumber, secondsPerDay]
    omega
  have htime : timeOf (digitsOfTime a.timeOfDay) = a.timeOfDay :=
    timeOf_digitsOfTime a.timeOfDay_valid (by rw [Instant.timeOfDay, hnano]; rfl)
  have hsecond : (digitsOfTime a.timeOfDay).toNat % 100 < 60 := by
    have hdigit : (digitsOfTime a.timeOfDay).toNat % 100 = a.timeOfDay.second :=
      congrArg TimeOfDay.second htime
    have hwhole := a.timeOfDay_second
    rw [hnano] at hwhole
    omega
  rw [composeDateTime?_eq, if_pos hsecond, dateOf_digitsOfDate hdate ⟨hyear, hlast⟩, htime,
    Instant.ofDateTime?_date_timeOfDay]

/-! ## All about the digits -/

/-- What dates and times of day of six digits each denote. -/
theorem composeDateTime?_denotes :
    -- Exactly those that exist denote an instant,
    (∀ date time, (composeDateTime? date time).isSome ↔ Spelled date time)
    -- which is the one that they spell: it has this date and this time of day, and so many days and
    -- seconds have gone by since the first day of 1970.
      ∧ (∀ date time a, composeDateTime? date time = some a →
        a.date = dateOf date ∧ a.timeOfDay = timeOf time ∧ a.nano = 0
          ∧ ∃ days : Nat, dateOf date = Date.next^[days] ⟨1970, 1, 1⟩
            ∧ a.second = days * secondsPerDay + secondsOf time)
    -- Other digits denote another instant, and greater ones a later one.
      ∧ (∀ date time date' time' a a', composeDateTime? date time = some a →
        composeDateTime? date' time' = some a' →
          (a = a' ↔ date = date' ∧ time = time')
            ∧ (a < a' ↔ date < date' ∨ date = date' ∧ time < time'))
    -- A whole second from the year 2000 on is given back by its digits.
      ∧ ∀ a : Instant, a.nano = 0 → 2000 ≤ a.date.year →
        composeDateTime? (digitsOfDate a.date) (digitsOfTime a.timeOfDay) = some a := by
  refine ⟨composeDateTime?_isSome_iff, fun date time a h => ?_,
    fun date time date' time' a a' h h' => ⟨⟨?_, ?_⟩, composeDateTime?_lt_iff h h'⟩,
    fun a => composeDateTime?_digits⟩
  · obtain ⟨hdate, htime⟩ := spells_of_composeDateTime? h
    exact ⟨hdate, htime, nano_of_composeDateTime? h, second_of_composeDateTime? h⟩
  · rintro rfl
    exact composeDateTime?_inj h h'
  · rintro ⟨rfl, rfl⟩
    exact Option.some.inj (h.symm.trans h')

/-- The last second of a leap day and the first one of the day after. -/
theorem composeDateTime?_denotes_leapDay : ∃ a a', composeDateTime? 240229 235959 = some a
    ∧ composeDateTime? 240301 0 = some a' ∧ a < a' ∧ a.date = ⟨2024, 2, 29⟩
    ∧ composeDateTime? (digitsOfDate a.date) (digitsOfTime a.timeOfDay) = some a
    ∧ composeDateTime? 230229 235959 = none := by
  obtain ⟨-, hspells, horder, hdigits⟩ := composeDateTime?_denotes
  obtain ⟨a, ha⟩ := Option.isSome_iff_exists.mp
    (show (composeDateTime? 240229 235959).isSome from by decide)
  obtain ⟨a', ha'⟩ := Option.isSome_iff_exists.mp
    (show (composeDateTime? 240301 0).isSome from by decide)
  obtain ⟨hdate, -, hnano, -⟩ := hspells _ _ _ ha
  have hleap : a.date = ⟨2024, 2, 29⟩ := hdate
  exact ⟨a, a', ha, ha', (horder _ _ _ _ _ _ ha ha').2.mpr (.inl (by decide)), hleap,
    hdigits a hnano (by rw [hleap]; decide), by decide⟩

end FieldTelemetry.Wire
