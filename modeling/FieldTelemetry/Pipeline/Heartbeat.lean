import FieldTelemetry.Intake.Queue
import FieldTelemetry.Pipeline.Normalizer
import FieldTelemetry.Store.Reconcile

/-!
# Heartbeats

A collector tells the others that it is alive by updates of its own snapshot.

## Main definitions

* `Heartbeat`: the collector that says it is alive
* `Heartbeat.status`, `Heartbeat.beat`: what it says, and saying so
-/

namespace FieldTelemetry.Pipeline

open Intake (Queue)
open Store (Backend Call EntityKind ServerStatus StoreError)
open Time (Instant)

/-- The version of the collector. -/
def version : String := "0.1.0"

/-- The collector that says it is alive. -/
structure Heartbeat where
  /-- Its id. -/
  instanceId : String
  /-- When it started. -/
  startedAt : Instant

namespace Heartbeat

/-- What it says at an instant. -/
def status (heartbeat : Heartbeat) (tally : Tally) (queue : Queue) (now : Instant) :
    ServerStatus where
  instanceId := some heartbeat.instanceId
  startedAt := some heartbeat.startedAt
  lastHeartbeat := some now
  version := some version
  pipeline := some tally.counters
  queue := some queue.counters

/-- One heartbeat. -/
def beat {σ : Type} [Backend σ] (heartbeat : Heartbeat) (tally : Tally) (queue : Queue)
    (attempts : Nat) (now : Instant) (backend : σ) : Except StoreError Unit × σ :=
  let call : Call ServerStatus :=
    { kind := EntityKind.server, id := heartbeat.instanceId
      update := heartbeat.status tally queue now, attempts }
  let (result, backend) := call.run now backend
  (result.map fun _ => (), backend)

end Heartbeat

end FieldTelemetry.Pipeline
