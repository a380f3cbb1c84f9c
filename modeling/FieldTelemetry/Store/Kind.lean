import FieldTelemetry.Record.Counters
import FieldTelemetry.Record.SensorRecord

/-!
# Kinds of entities

The collector keeps the state of four kinds of entities: devices, the same devices as consumers of
their values see them, gateways, and the collectors themselves.

## Main definitions

* `Mergeable`: the types of states that partial updates are merged into
* `GatewayStatus`, `ServerStatus`: the states of gateways and collectors
* `EntityKind`: a kind of entities
* `EntityKind.device`, `EntityKind.value`, `EntityKind.gateway`, `EntityKind.server`: the kinds
-/

namespace FieldTelemetry

open Json (slots optional?)
open Time (Instant)

namespace Store

/-- The types of states that partial updates are merged into. The default is the state of which
nothing is known. -/
class Mergeable (α : Type) extends Json.Record α, Overlay α, Alike α, Inhabited α where
  /-- The state with the values of one category alone. -/
  project : α → Category → α

instance : Mergeable SensorRecord where
  project := SensorRecord.project

/-! ## Gateways -/

/-- The last known state of a gateway. -/
structure GatewayStatus where
  /-- Latitude. -/
  lat : Option Binary32 := none
  /-- Longitude. -/
  lon : Option Binary32 := none
  /-- Altitude. -/
  alt : Option Int32 := none
  /-- Name of its place. -/
  location : Option String := none
  /-- Ratio of signal to noise. -/
  snr : Option Binary32 := none
  /-- The way its latest message came. -/
  lastTransport : Option String := none
  /-- When its latest message came. -/
  lastSeen : Option Instant := none
deriving DecidableEq, Inhabited

instance : Overlay GatewayStatus where
  overlay a b :=
    ⟨b.lat.or a.lat, b.lon.or a.lon, b.alt.or a.alt, b.location.or a.location, b.snr.or a.snr,
      b.lastTransport.or a.lastTransport, b.lastSeen.or a.lastSeen⟩

instance : Alike GatewayStatus where
  alike a b :=
    sameNumber a.lat b.lat && sameNumber a.lon b.lon && a.alt == b.alt
      && a.location == b.location && sameNumber a.snr b.snr
      && a.lastTransport == b.lastTransport && a.lastSeen == b.lastSeen

instance : Json.Record GatewayStatus where
  form := slots true ["lat", "lon", "alt", "location", "snr", "last_transport", "last_seen"]
  values x :=
    [x.lat.map Json.ofSingle, x.lon.map Json.ofSingle, x.alt.map Json.ofInt32,
      x.location.map Json.ofString, x.snr.map Json.ofSingle, x.lastTransport.map Json.ofString,
      x.lastSeen.map Json.ofInstant]
  ofValues?
    | [lat, lon, alt, location, snr, lastTransport, lastSeen] => do
      return ⟨← optional? Json.single? lat, ← optional? Json.single? lon,
        ← optional? Json.int32? alt, ← optional? Json.text? location,
        ← optional? Json.single? snr, ← optional? Json.text? lastTransport,
        ← optional? Json.instant? lastSeen⟩
    | _ => none

/-- The status with the values of one category alone. -/
def GatewayStatus.project (status : GatewayStatus) : Category → GatewayStatus
  | .location =>
    { lat := status.lat, lon := status.lon, alt := status.alt, location := status.location }
  | _ => {}

instance : Mergeable GatewayStatus where
  project := GatewayStatus.project

/-! ## Collectors -/

/-- What a collector says about itself. -/
structure ServerStatus where
  /-- The collector. -/
  instanceId : Option String := none
  /-- When it started. -/
  startedAt : Option Instant := none
  /-- When it said so. -/
  lastHeartbeat : Option Instant := none
  /-- Its version. -/
  version : Option String := none
  /-- What its pipeline has counted. -/
  pipeline : Option PipelineCounters := none
  /-- What its intake queue has counted. -/
  queue : Option QueueCounters := none
deriving DecidableEq, Inhabited

instance : Overlay ServerStatus where
  overlay a b :=
    ⟨b.instanceId.or a.instanceId, b.startedAt.or a.startedAt,
      b.lastHeartbeat.or a.lastHeartbeat, b.version.or a.version, b.pipeline.or a.pipeline,
      b.queue.or a.queue⟩

instance : Alike ServerStatus where
  alike a b := a == b

instance : Json.Record ServerStatus where
  form := slots true ["instance_id", "started_at", "last_heartbeat", "version", "pipeline", "queue"]
  values x :=
    [x.instanceId.map Json.ofString, x.startedAt.map Json.ofInstant,
      x.lastHeartbeat.map Json.ofInstant, x.version.map Json.ofString,
      x.pipeline.map Json.ofRecord, x.queue.map Json.ofRecord]
  ofValues?
    | [instanceId, startedAt, lastHeartbeat, version, pipeline, queue] => do
      return ⟨← optional? Json.text? instanceId, ← optional? Json.instant? startedAt,
        ← optional? Json.instant? lastHeartbeat, ← optional? Json.text? version,
        ← optional? Json.record? pipeline, ← optional? Json.record? queue⟩
    | _ => none

instance : Mergeable ServerStatus where
  project _ _ := {}

/-! ## Kinds -/

/-- A kind of entities with states of a type. -/
structure EntityKind (α : Type) where
  /-- Its name, which is also that of its directory. -/
  name : String
  /-- The categories whose changes are remembered. -/
  tracked : List Category
  /-- What an update says about entities of the kind. -/
  prepare : α → α

/-- The record without what tells how it came. -/
def withoutReception (record : SensorRecord) : SensorRecord :=
  { record with gateway := none, service := none }

namespace EntityKind

/-- Devices, with all that is known of them. -/
def device : EntityKind SensorRecord := ⟨"device", Category.all, id⟩

/-- Devices as consumers of their values see them. -/
def value : EntityKind SensorRecord := ⟨"value", Category.all, withoutReception⟩

/-- Gateways. -/
def gateway : EntityKind GatewayStatus := ⟨"gateway", [.location], id⟩

/-- Collectors. -/
def server : EntityKind ServerStatus := ⟨"server", [], id⟩

end EntityKind

end Store

end FieldTelemetry
