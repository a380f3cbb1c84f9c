import FieldTelemetry.Text.Octets
import FieldTelemetry.Time.Instant

/-!
# Timestamps of fixed width

The reading of timestamps as devices send them: every part has its full width, the date and the time
of day are separated by `T`, `t` or a space, and an offset from Universal Time is always there.

## Main definitions

* `TimestampError`: why a text is no such timestamp
* `Instant.ofStrict`: the instant of a text
-/

namespace FieldTelemetry.Time

open Text

/-- Why a text is not a timestamp. -/
inductive TimestampError
  /-- The text ends too early. -/
  | tooShort
  /-- A character is not the expected one. -/
  | invalid
  /-- A part of the timestamp does not exist in the calendar or on the clock. -/
  | outOfRange
  /-- More text follows. -/
  | trailing
deriving DecidableEq, Repr

/-- The wording of a reason. -/
def TimestampError.message : TimestampError → String
  | .tooShort => "premature end of input"
  | .invalid => "input contains invalid characters"
  | .outOfRange => "input is out of range"
  | .trailing => "trailing input"

namespace Strict

/-- The number of exactly `count` digits, after `found`, and what follows them. -/
def digits : (count : Nat) → (found : Nat) → Octets → Except TimestampError (Nat × Octets)
  | 0, found, rest => .ok (found, rest)
  | _ + 1, _, [] => .error .tooShort
  | count + 1, found, b :: rest =>
    match digitOfOctet? b with
    | some d => digits count (10 * found + d.val) rest
    | none => .error .invalid

/-- What follows one of the given characters. -/
def mark (accepted : List Char) : Octets → Except TimestampError Octets
  | [] => .error .tooShort
  | b :: rest => if accepted.contains (Char.ofNat b.toNat) then .ok rest else .error .invalid

/-- The leading digits of a fraction, at most `room` of them, as a number of as many digits, and
what follows all the digits. -/
def fractionDigits : (room : Nat) → (found : Nat) → Octets → Nat × Octets
  | room, found, [] => (found * Nat.pow 10 room, [])
  | room, found, b :: rest =>
    match digitOfOctet? b with
    | some d =>
      match room with
      | 0 => fractionDigits 0 found rest
      | room + 1 => fractionDigits room (10 * found + d.val) rest
    | none => (found * Nat.pow 10 room, b :: rest)

/-- The nanoseconds of a fraction, zero when there is none. A point has a digit after it, and
digits past the ninth do not count. -/
def fraction : Octets → Except TimestampError (Nat × Octets)
  | 0x2e :: rest => do
    discard (digits 1 0 rest)
    return fractionDigits 9 0 rest
  | rest => .ok (0, rest)

/-- The minutes of an offset, after its colon. -/
def offsetMinutes (octets : Octets) : Except TimestampError (Nat × Octets) :=
  match octets with
  | a :: b :: rest =>
    match digitOfOctet? a, digitOfOctet? b with
    | some tens, some ones =>
      if tens.val < 6 then .ok (10 * tens.val + ones.val, rest) else .error .outOfRange
    | _, _ => .error .invalid
  | _ => .error .tooShort

/-- The size of an offset in seconds, after its sign. -/
def offsetSize (octets : Octets) : Except TimestampError (Nat × Octets) :=
  match octets with
  | a :: b :: rest =>
    match digitOfOctet? a, digitOfOctet? b with
    | some tens, some ones => do
      let rest ← mark [':'] rest
      let (minutes, rest) ← offsetMinutes rest
      return (3600 * (10 * tens.val + ones.val) + 60 * minutes, rest)
    | _, _ => .error .invalid
  | _ => .error .tooShort

/-- The offset from Universal Time in seconds: the letter for none, or a sign and a size. The sign
may be the minus sign proper, which has three octets. -/
def offset : Octets → Except TimestampError (Int × Octets)
  | [] => .error .tooShort
  | 0x5a :: rest => .ok (0, rest)
  | 0x7a :: rest => .ok (0, rest)
  | 0x2b :: rest => do
    let (size, rest) ← offsetSize rest
    return ((size : Int), rest)
  | 0x2d :: rest => do
    let (size, rest) ← offsetSize rest
    return (-(size : Int), rest)
  | 0xe2 :: 0x88 :: 0x92 :: rest => do
    let (size, rest) ← offsetSize rest
    return (-(size : Int), rest)
  | _ => .error .invalid

/-- The date in front of a text. -/
def date (octets : Octets) : Except TimestampError (Date × Octets) := do
  let (year, rest) ← digits 4 0 octets
  let rest ← mark ['-'] rest
  let (month, rest) ← digits 2 0 rest
  let rest ← mark ['-'] rest
  let (day, rest) ← digits 2 0 rest
  let date : Date := ⟨year, month, day⟩
  if date.Valid then return (date, rest) else throw .outOfRange

/-- The time of day in front of a text. -/
def timeOfDay (octets : Octets) : Except TimestampError (TimeOfDay × Octets) := do
  let (hour, rest) ← digits 2 0 octets
  let rest ← mark [':'] rest
  let (minute, rest) ← digits 2 0 rest
  let rest ← mark [':'] rest
  let (second, rest) ← digits 2 0 rest
  let (nano, rest) ← fraction rest
  let time : TimeOfDay := ⟨hour, minute, second, nano⟩
  if time.Valid then return (time, rest) else throw .outOfRange

/-- The octets of date and time of day without a fraction. -/
def leastLength : Nat := 19

end Strict

/-- The instant that a timestamp of fixed width denotes. An offset is less than a day. -/
def Instant.ofStrict (text : String) : Except TimestampError Instant := do
  let octets := utf8 text
  if octets.length < Strict.leastLength then throw .tooShort
  let (date, rest) ← Strict.date octets
  let rest ← Strict.mark ['T', 't', ' '] rest
  let (time, rest) ← Strict.timeOfDay rest
  let (offset, rest) ← Strict.offset rest
  if rest ≠ [] then throw .trailing
  if secondsPerDay ≤ offset.natAbs then throw .outOfRange
  match Instant.ofDateTime? date time offset with
  | some instant => return instant
  | none => throw .outOfRange

end FieldTelemetry.Time
