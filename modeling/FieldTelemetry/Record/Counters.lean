import FieldTelemetry.Json.Record

/-!
# Counters

What the parts of a collector have counted, as they report it: words that fit in their documents.

## Main definitions

* `PipelineCounters`: the counts of the pipeline
* `QueueCounters`: the counts of the intake queue
* `ListenerCounters`: the counts of a listener
-/

namespace FieldTelemetry

open Json (slots required?)

/-- What the pipeline has counted. -/
structure PipelineCounters where
  /-- Requests taken from the intake. -/
  requests : UInt64 := 0
  /-- Messages found in them. -/
  messages : UInt64 := 0
  /-- Messages accepted as readings. -/
  accepted : UInt64 := 0
  /-- Messages dropped as copies. -/
  duplicates : UInt64 := 0
  /-- Payloads and messages that could not be read or had no sender. -/
  malformed : UInt64 := 0
  /-- Messages that refer to an unknown stamp. -/
  unstampable : UInt64 := 0
  /-- Readings with place and time taken from another stamp. -/
  degraded : UInt64 := 0
  /-- Messages that carry no measurements. -/
  commands : UInt64 := 0
  /-- Failed deliveries of readings. -/
  exportFailures : UInt64 := 0
  /-- Updates that were not stored. -/
  storeFailures : UInt64 := 0
deriving DecidableEq, Inhabited, Repr

instance : Json.Record PipelineCounters where
  form := slots false ["requests", "messages", "accepted", "duplicates", "malformed",
    "unstampable", "degraded", "commands", "export_failures", "store_failures"]
  values x :=
    [some (Json.ofUInt64 x.requests), some (Json.ofUInt64 x.messages),
      some (Json.ofUInt64 x.accepted), some (Json.ofUInt64 x.duplicates),
      some (Json.ofUInt64 x.malformed), some (Json.ofUInt64 x.unstampable),
      some (Json.ofUInt64 x.degraded), some (Json.ofUInt64 x.commands),
      some (Json.ofUInt64 x.exportFailures), some (Json.ofUInt64 x.storeFailures)]
  ofValues?
    | [requests, messages, accepted, duplicates, malformed, unstampable, degraded, commands,
      exportFailures, storeFailures] => do
      return ⟨← required? Json.uint64? requests, ← required? Json.uint64? messages,
        ← required? Json.uint64? accepted, ← required? Json.uint64? duplicates,
        ← required? Json.uint64? malformed, ← required? Json.uint64? unstampable,
        ← required? Json.uint64? degraded, ← required? Json.uint64? commands,
        ← required? Json.uint64? exportFailures, ← required? Json.uint64? storeFailures⟩
    | _ => none

/-- What the intake queue has counted. -/
structure QueueCounters where
  /-- Requests that the queue holds. -/
  capacity : UInt64 := 0
  /-- Requests accepted. -/
  enqueued : UInt64 := 0
  /-- Requests handed out. -/
  dequeued : UInt64 := 0
  /-- Requests refused by the open breaker. -/
  rejected : UInt64 := 0
  /-- Requests in the queue or waiting to enter it. -/
  depth : UInt64 := 0
  /-- The largest depth so far. -/
  highWater : UInt64 := 0
  /-- How often the breaker opened. -/
  trips : UInt32 := 0
deriving DecidableEq, Inhabited, Repr

instance : Json.Record QueueCounters where
  form := slots false ["capacity", "enqueued", "dequeued", "rejected", "depth", "high_water",
    "trips"]
  values x :=
    [some (Json.ofUInt64 x.capacity), some (Json.ofUInt64 x.enqueued),
      some (Json.ofUInt64 x.dequeued), some (Json.ofUInt64 x.rejected),
      some (Json.ofUInt64 x.depth), some (Json.ofUInt64 x.highWater),
      some (Json.ofUInt32 x.trips)]
  ofValues?
    | [capacity, enqueued, dequeued, rejected, depth, highWater, trips] => do
      return ⟨← required? Json.uint64? capacity, ← required? Json.uint64? enqueued,
        ← required? Json.uint64? dequeued, ← required? Json.uint64? rejected,
        ← required? Json.uint64? depth, ← required? Json.uint64? highWater,
        ← required? Json.uint32? trips⟩
    | _ => none

/-- What a listener has counted. -/
structure ListenerCounters where
  /-- Transmissions that were accepted. -/
  received : UInt64 := 0
  /-- Octets of their payloads. -/
  bytes : UInt64 := 0
  /-- Transmissions that were refused. -/
  rejected : UInt64 := 0
  /-- Transmissions that could not be read. -/
  errors : UInt64 := 0
deriving DecidableEq, Inhabited, Repr

instance : Json.Record ListenerCounters where
  form := slots false ["received", "bytes", "rejected", "errors"]
  values x :=
    [some (Json.ofUInt64 x.received), some (Json.ofUInt64 x.bytes),
      some (Json.ofUInt64 x.rejected), some (Json.ofUInt64 x.errors)]
  ofValues?
    | [received, bytes, rejected, errors] => do
      return ⟨← required? Json.uint64? received, ← required? Json.uint64? bytes,
        ← required? Json.uint64? rejected, ← required? Json.uint64? errors⟩
    | _ => none

end FieldTelemetry
