import FieldTelemetry.Number.Reading
import FieldTelemetry.Text.Blank
import FieldTelemetry.Time.Instant

/-!
# Timestamps of free width

The reading of timestamps as stored documents hold them. Numbers need not have their full width,
blanks may stand around the signs between them, years with a sign may have any number of digits,
and Universal Time may be written out.

## Main definitions

* `Instant.ofRelaxed?`: the instant of a text
-/

namespace FieldTelemetry.Time

open Text

namespace Relaxed

/-- At most `room` digits in front, as a number after `found`, and what follows them. -/
def someDigits : (room : Nat) → (found : Nat) → List Char → Nat × List Char
  | 0, found, cs => (found, cs)
  | _ + 1, found, [] => (found, [])
  | room + 1, found, c :: cs =>
    match digitOf? c with
    | some d => someDigits room (10 * found + d.val) cs
    | none => (found, c :: cs)

/-- A number of one to `width` digits with blanks in front. -/
def number? (width : Nat) (cs : List Char) : Option (Nat × List Char) :=
  match trimStart cs with
  | [] => none
  | c :: rest => (digitOf? c).map fun d => someDigits (width - 1) d.val rest

/-- A run of at least one digit. -/
def longNumber? (cs : List Char) : Option (Nat × List Char) :=
  match takeDigits cs with
  | ([], _) => none
  | (ds, rest) => some (value ds, rest)

/-- A year: four digits at most, or a sign and any number of them. -/
def year? (cs : List Char) : Option (Int × List Char) :=
  match trimStart cs with
  | '-' :: rest => (longNumber? rest).map fun (n, rest) => (-(n : Int), rest)
  | '+' :: rest => (longNumber? rest).map fun (n, rest) => ((n : Int), rest)
  | rest => (number? 4 rest).map fun (n, rest) => ((n : Int), rest)

/-- A sign between two numbers, with blanks in front. -/
def mark? (expected : Char) (cs : List Char) : Option (List Char) :=
  match trimStart cs with
  | [] => none
  | c :: rest => if c = expected then some rest else none

/-- The nanoseconds of a fraction, zero when there is none. A point has a digit after it, and
digits past the ninth do not count. -/
def fraction? : List Char → Option (Nat × List Char)
  | '.' :: cs =>
    match takeDigits cs with
    | ([], _) => none
    | (ds, rest) => some (value (ds.take 9) * Nat.pow 10 (9 - ds.length), rest)
  | cs => some (0, cs)

/-- The size of an offset in seconds, after its sign: two digits of hours, any colons and blanks,
and two digits of minutes. -/
def offsetSize? (cs : List Char) : Option (Nat × List Char) := do
  match cs with
  | a :: b :: rest =>
    let hours := 10 * (← digitOf? a).val + (← digitOf? b).val
    match rest.dropWhile fun c => c == ':' || isBlank c with
    | c :: d :: rest =>
      let tens ← digitOf? c
      let ones ← digitOf? d
      if tens.val < 6 then some (3600 * hours + 60 * (10 * tens.val + ones.val), rest) else none
    | _ => none
  | _ => none

/-- The offset from Universal Time in seconds: its name in any case, the letter for it, or a sign
and a size. -/
def offset? : List Char → Option (Int × List Char)
  | a :: b :: c :: rest =>
    if [a.toUpper, b.toUpper, c.toUpper] = ['U', 'T', 'C'] then some (0, rest)
    else short? (a :: b :: c :: rest)
  | cs => short? cs
where
  /-- The letter, or a sign and a size. -/
  short? : List Char → Option (Int × List Char)
    | [] => none
    | sign :: rest =>
      if sign = 'Z' ∨ sign = 'z' then some (0, rest)
      else if sign = '+' then (offsetSize? rest).map fun (n, rest) => ((n : Int), rest)
      else if sign = '-' ∨ sign = '−' then
        (offsetSize? rest).map fun (n, rest) => (-(n : Int), rest)
      else none

/-- The date in front of a text. -/
def date? (cs : List Char) : Option (Date × List Char) := do
  let (year, cs) ← year? cs
  let cs ← mark? '-' cs
  let (month, cs) ← number? 2 cs
  let cs ← mark? '-' cs
  let (day, cs) ← number? 2 cs
  return (⟨year, month, day⟩, cs)

/-- The time of day in front of a text. -/
def timeOfDay? (cs : List Char) : Option (TimeOfDay × List Char) := do
  let (hour, cs) ← number? 2 cs
  let cs ← mark? ':' cs
  let (minute, cs) ← number? 2 cs
  let cs ← mark? ':' cs
  let (second, cs) ← number? 2 cs
  let (nano, cs) ← fraction? cs
  return (⟨hour, minute, second, nano⟩, cs)

/-- What follows the sign between date and time of day. -/
def separator? : List Char → Option (List Char)
  | [] => none
  | c :: rest => if c = 'T' ∨ c = 't' ∨ c = ' ' then some rest else none

end Relaxed

/-- The instant that a timestamp of free width denotes. An offset is less than a day. -/
def Instant.ofRelaxed? (text : String) : Option Instant := do
  let (date, cs) ← Relaxed.date? text.toList
  let cs ← Relaxed.separator? cs
  let (time, cs) ← Relaxed.timeOfDay? cs
  let (offset, cs) ← Relaxed.offset? (trimStart cs)
  guard (trimStart cs = [])
  guard (offset.natAbs < secondsPerDay)
  Instant.ofDateTime? date time offset

end FieldTelemetry.Time
