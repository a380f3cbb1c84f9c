import FieldTelemetry.Intake.Hints
import FieldTelemetry.Text.Octets

/-!
# Requests

A request is one transmission as a listener hands it to the collector.

## Main definitions

* `Request`: a transmission
-/

namespace FieldTelemetry.Intake

open Time (Instant)

/-- A transmission. -/
structure Request where
  /-- Its octets. -/
  payload : Octets
  /-- The label of its transport. -/
  transport : String
  /-- When it was received. -/
  receivedAt : Instant
  /-- What its gateway says. -/
  hints : Hints := {}
  /-- The number that the intake queue gave it. -/
  sequence : Nat := 0
deriving DecidableEq

end FieldTelemetry.Intake
