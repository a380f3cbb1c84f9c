import FieldTelemetry.Time.Strict
import FieldTelemetry.Wire.Message

/-!
# Capture times

A message says when its measurements were made by a timestamp, or by a date and a time of day of
six digits each with an offset in seconds.

## Main definitions

* `CaptureTimeError`: why a capture time denotes no instant
* `composeDateTime?`: the instant of a date and a time of day of six digits
* `Message.captureTime`: the instant at which the measurements of a message were made
-/

namespace FieldTelemetry.Wire

open Time

/-- Why a capture time denotes no instant. -/
inductive CaptureTimeError
  /-- The timestamp is none. -/
  | timestamp (text : String) (error : TimestampError)
  /-- The date or the time of day does not exist. -/
  | digits (date time : UInt32)
  /-- The offset leads out of the calendar. -/
  | outOfCalendar
deriving DecidableEq, Repr

/-- The wording of an error. -/
def CaptureTimeError.message : CaptureTimeError → String
  | .timestamp text error => "invalid captured-at: " ++ text ++ ": " ++ error.message
  | .digits date time =>
    "invalid captured-at: date=" ++ Text.padded 6 date.toNat ++ " time="
      ++ Text.padded 6 time.toNat
  | .outOfCalendar => "invalid captured-at: out of the calendar"

/-- The instant of a date, with the year counted from 2000 in front of month and day of two digits
each, and of a time of day of two digits each for hour, minute and second. -/
def composeDateTime? (date time : UInt32) : Option Instant :=
  let (date, time) := (date.toNat, time.toNat)
  let second := time % 100
  if second < 60 then
    Instant.ofDateTime? ⟨2000 + date / 10000, date / 100 % 100, date % 100⟩
      ⟨time / 10000, time / 100 % 100, second, 0⟩ 0
  else none

/-- The instant at which the measurements of a message were made, if it says so. A timestamp goes
before date and time of day. -/
def Message.captureTime (m : Message) : Except CaptureTimeError (Option Instant) :=
  match (m .capturedAt : Option String) with
  | some text =>
    match Instant.ofStrict text with
    | .ok instant => .ok (some instant)
    | .error error => .error (.timestamp text error)
  | none =>
    match (m .captureDate : Option UInt32), (m .captureTime : Option UInt32) with
    | some date, some time =>
      match composeDateTime? date time with
      | none => .error (.digits date time)
      | some start =>
        match start.addSeconds? ((m .captureOffset).elim 0 Int32.toInt) with
        | some instant => .ok (some instant)
        | none => .error .outOfCalendar
    | _, _ => .ok none

end FieldTelemetry.Wire
