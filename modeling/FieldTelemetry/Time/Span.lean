import FieldTelemetry.Text.Digits

/-!
# Spans of time

A span is a number of nanoseconds. Spans that are configured in larger units have to fit in
sixty-four bits of milliseconds.

## Main definitions

* `Span`: a span of time
* `Span.ofMillis`, `Span.ofSeconds?`, `Span.ofMinutes?`: spans by unit
* `Span.millis`: whole milliseconds of a span
* `Span.render`: a span in hours and minutes
-/

namespace FieldTelemetry.Time

/-- A span of time in nanoseconds. -/
abbrev Span := Int

namespace Span

/-- A span of milliseconds. -/
def ofMillis (millis : Int) : Span := millis * 1000000

/-- Seconds beyond this number do not fit in sixty-four bits of milliseconds. -/
def secondLimit : Int := Int64.maxValue.toInt / 1000

/-- A span of seconds, if it fits. -/
def ofSeconds? (seconds : Int) : Option Span :=
  if seconds.natAbs ≤ secondLimit then some (ofMillis (1000 * seconds)) else none

/-- A span of minutes, if it fits. -/
def ofMinutes? (minutes : Int) : Option Span := ofSeconds? (60 * minutes)

/-- The milliseconds of a span, without the part of one that is left. -/
def millis (span : Span) : Int := span.tdiv 1000000

/-- The seconds of a span, without the part of one that is left. -/
def seconds (span : Span) : Int := span.tdiv 1000000000

/-- A span in hours and minutes, or in seconds when it is less than a minute. A negative span is
shown as none. -/
def render (span : Span) : String :=
  let seconds := (seconds span).toNat
  let hours := seconds / 3600
  let minutes := seconds % 3600 / 60
  if hours = 0 ∧ minutes = 0 then Text.decimal seconds ++ "s"
  else if hours = 0 then Text.decimal minutes ++ "m"
  else if minutes = 0 then Text.decimal hours ++ "h"
  else Text.decimal hours ++ "h " ++ Text.decimal minutes ++ "m"

end Span

end FieldTelemetry.Time
