import FieldTelemetry.Proofs.Time.Calendar
import FieldTelemetry.Wire.CaptureTime

/-!
# Capture times out of the calendar

A date and a time of day of six digits each lie in the year 2000 or later, so that an offset leads
out of the calendar only beyond its end. Every other message has a capture time, or has none, or has
one that denotes no instant.

## Main definitions

* `Message.LeavesCalendar`: date, time of day and offset of a message lead out of the calendar

## Main results

* `composeDateTime?_eq_some`: the instant of a date and a time of day
* `Message.captureTime_eq_outOfCalendar_iff`: messages whose capture time leads out of the calendar
-/

namespace FieldTelemetry.Wire

open Time

/-! ## Dates and times of day -/

/-- The date of six digits, with the year counted from 2000. -/
def dateOf (date : UInt32) : Date :=
  ⟨2000 + (date.toNat / 10000 : Nat), date.toNat / 100 % 100, date.toNat % 100⟩

/-- The seconds of a time of day of six digits. -/
def secondsOf (time : UInt32) : Nat :=
  time.toNat / 10000 * 3600 + time.toNat / 100 % 100 * 60 + time.toNat % 100

section Digits

variable {date time : UInt32} {a : Instant}

/-- Date and time of day have whole seconds only. -/
theorem composeDateTime?_eq_some (h : composeDateTime? date time = some a) :
    (dateOf date).Valid ∧ a.nano = 0
      ∧ a.second = (dateOf date).dayNumber * secondsPerDay + secondsOf time := by
  rw [composeDateTime?] at h
  split at h
  · rename_i hsecond
    rw [Instant.ofDateTime?] at h
    split at h
    · rename_i hvalid
      dsimp only at h
      rw [if_neg (by omega)] at h
      obtain ⟨hstart, hnano⟩ := Instant.make?_eq_some h
      refine ⟨hvalid.1, hnano, ?_⟩
      rw [hstart, secondsOf, dateOf]
      push_cast
      omega
    · cases h
  · cases h

theorem nano_of_composeDateTime? (h : composeDateTime? date time = some a) : a.nano = 0 :=
  (composeDateTime?_eq_some h).2.1

/-- No date of six digits lies before the year 2000. -/
theorem le_second_of_composeDateTime? (h : composeDateTime? date time = some a) :
    (Date.dayNumber ⟨2000, 1, 1⟩) * secondsPerDay ≤ a.second := by
  obtain ⟨⟨hday, -⟩, -, hsecond⟩ := composeDateTime?_eq_some h
  have hyear : Date.daysBeforeYear 2000 ≤ Date.daysBeforeYear (dateOf date).year := by
    have hlate : 2000 ≤ (dateOf date).year := Int.le_add_of_nonneg_right (Int.natCast_nonneg _)
    unfold Date.daysBeforeYear
    omega
  have hnumber : Date.dayNumber ⟨2000, 1, 1⟩ ≤ (dateOf date).dayNumber := by
    have hfirst : Date.dayNumber ⟨2000, 1, 1⟩ = Date.daysBeforeYear 2000 - Date.origin := rfl
    rw [hfirst, Date.dayNumber]
    omega
  rw [hsecond, secondsPerDay]
  omega

end Digits

/-! ## Offsets -/

namespace Message

/-- The offset of a message in seconds, zero when it has none. -/
def offset (m : Message) : Int := (m .captureOffset : Option Int32).elim 0 Int32.toInt

/-- A message has no timestamp but a date and a time of day that exist, and its offset leads from
them beyond the end of the calendar. -/
def LeavesCalendar (m : Message) : Prop :=
  (m .capturedAt : Option String) = none ∧ ∃ date time start,
    (m .captureDate : Option UInt32) = some date ∧ (m .captureTime : Option UInt32) = some time
      ∧ composeDateTime? date time = some start ∧ lastSecond < start.second + m.offset

theorem neg_le_offset (m : Message) : -2147483648 ≤ m.offset := by
  rw [offset]
  cases (m .captureOffset : Option Int32) with
  | none => decide
  | some offset => exact offset.le_toInt

/-- An offset leads out of the calendar only beyond its end. -/
theorem addOffset?_eq_none_iff (m : Message) {date time : UInt32} {start : Instant}
    (h : composeDateTime? date time = some start) :
    start.addSeconds? m.offset = none ↔ lastSecond < start.second + m.offset := by
  have hnano : start.nano < nanosPerSecond := by
    rw [nano_of_composeDateTime? h]
    decide
  -- Offsets of thirty-two bits reach back less than a hundred years.
  have hfirst : firstSecond + 2147483648 ≤ Date.dayNumber ⟨2000, 1, 1⟩ * secondsPerDay := by decide
  have hstart := le_second_of_composeDateTime? h
  have hoffset := m.neg_le_offset
  rw [Instant.addSeconds?_eq_none_iff hnano]
  omega

/-- The capture time of a message without a timestamp, by its date, time of day and offset. -/
theorem captureTime_of_dateTime {m : Message} {date time : UInt32}
    (htext : (m .capturedAt : Option String) = none)
    (hdate : (m .captureDate : Option UInt32) = some date)
    (htime : (m .captureTime : Option UInt32) = some time) :
    m.captureTime = match composeDateTime? date time with
      | none => .error (.digits date time)
      | some start =>
        match start.addSeconds? m.offset with
        | some instant => .ok (some instant)
        | none => .error .outOfCalendar := by
  rw [captureTime, htext, hdate, htime]
  rfl

theorem captureTime_eq_outOfCalendar_iff {m : Message} :
    m.captureTime = .error .outOfCalendar ↔ m.LeavesCalendar := by
  constructor
  · intro h
    cases htext : (m .capturedAt : Option String) with
    | some text =>
      rw [captureTime, htext] at h
      dsimp only at h
      split at h <;> cases h
    | none =>
      cases hdate : (m .captureDate : Option UInt32) with
      | none =>
        rw [captureTime, htext, hdate] at h
        cases h
      | some date =>
        cases htime : (m .captureTime : Option UInt32) with
        | none =>
          rw [captureTime, htext, hdate, htime] at h
          cases h
        | some time =>
          rw [captureTime_of_dateTime htext hdate htime] at h
          cases hstart : composeDateTime? date time with
          | none =>
            rw [hstart] at h
            cases h
          | some start =>
            refine ⟨htext, date, time, start, hdate, htime, hstart, ?_⟩
            rw [← m.addOffset?_eq_none_iff hstart]
            cases hsum : start.addSeconds? m.offset with
            | none => rfl
            | some instant =>
              rw [hstart] at h
              dsimp only at h
              rw [hsum] at h
              cases h
  · rintro ⟨htext, date, time, start, hdate, htime, hstart, hlate⟩
    rw [captureTime_of_dateTime htext hdate htime, hstart]
    dsimp only
    rw [(m.addOffset?_eq_none_iff hstart).mpr hlate]

end Message

end FieldTelemetry.Wire
