import FieldTelemetry.Record.Groups
import FieldTelemetry.Wire.CaptureTime

/-!
# Sensor records

A sensor record is one reading of one device: who measured, when, what, and how it came. It carries
only what its message carried.

## Main definitions

* `SensorRecord`: a reading
* `SensorRecord.ofMessage`: the reading of a message
* `SensorRecord.entityId?`: the id under which its device is known
* `Category`, `SensorRecord.project`: the parts of a record whose changes are remembered
-/

namespace FieldTelemetry

open Json (slots optional?)
open Time (Instant)

/-- One reading of one device. -/
structure SensorRecord where
  /-- Numeric id of the device. -/
  deviceId : Option UInt32 := none
  /-- Id of the device as a text. -/
  deviceName : Option String := none
  /-- Label of the kind of the device. -/
  deviceType : Option String := none
  /-- When it was measured. -/
  capturedAt : Option Instant := none
  /-- Where the device was. -/
  location : Option Location := none
  /-- Its surroundings. -/
  environment : Option Environment := none
  /-- Its battery. -/
  battery : Option Battery := none
  /-- Its Geiger tubes. -/
  geiger : Option Geiger := none
  /-- Its first particle counter. -/
  pms : Option Particulate := none
  /-- Its second particle counter. -/
  opc : Option Particulate := none
  /-- The gateway that heard the message. -/
  gateway : Option Reception := none
  /-- How the record came to the collector. -/
  service : Option ServiceInfo := none
  /-- Place and time were taken from another stamp than the message asked for. It is not written
  with the record. -/
  approximated : Bool := false
deriving DecidableEq, Inhabited

namespace SensorRecord

/-- A group that has a value. -/
def group? {α : Type} [DecidableEq α] [Inhabited α] (group : α) : Option α :=
  if group = default then none else some group

/-- The reading of a message that was captured at an instant. -/
def ofMessage (m : Wire.Message) (capturedAt : Option Instant) : SensorRecord where
  deviceId := m .deviceId
  deviceName := m.name?
  deviceType := m.deviceType?.map Wire.DeviceType.label
  capturedAt := capturedAt
  location := group? ⟨m .latitude, m .longitude, m .altitude⟩
  environment := group? ⟨m .temperature, m .humidity, m .pressure⟩
  battery := group? ⟨m .voltage, m .charge, m .current⟩
  geiger := group? ⟨m .tube0, m .tube1⟩
  pms := group? ⟨m .pmsPm1, m .pmsPm25, m .pmsPm10, m .pmsSeconds⟩
  opc := group? ⟨m .opcPm1, m .opcPm25, m .opcPm10, m .opcSeconds⟩

/-- The id under which the device is known: the text, or else the number. -/
def entityId? (record : SensorRecord) : Option String :=
  record.deviceName.or (record.deviceId.map fun id => Text.decimal id.toNat)

end SensorRecord

instance : Overlay SensorRecord where
  overlay a b :=
    { deviceId := b.deviceId.or a.deviceId
      deviceName := b.deviceName.or a.deviceName
      deviceType := b.deviceType.or a.deviceType
      capturedAt := b.capturedAt.or a.capturedAt
      location := overlayGroup a.location b.location
      environment := overlayGroup a.environment b.environment
      battery := overlayGroup a.battery b.battery
      geiger := overlayGroup a.geiger b.geiger
      pms := overlayGroup a.pms b.pms
      opc := overlayGroup a.opc b.opc
      gateway := overlayGroup a.gateway b.gateway
      service := overlayGroup a.service b.service
      approximated := a.approximated }

instance : Alike SensorRecord where
  alike a b :=
    a.deviceId == b.deviceId && a.deviceName == b.deviceName && a.deviceType == b.deviceType
      && a.capturedAt == b.capturedAt && Alike.alike a.location b.location
      && Alike.alike a.environment b.environment && Alike.alike a.battery b.battery
      && Alike.alike a.geiger b.geiger && Alike.alike a.pms b.pms && Alike.alike a.opc b.opc
      && Alike.alike a.gateway b.gateway && Alike.alike a.service b.service
      && a.approximated == b.approximated

instance : Json.Record SensorRecord where
  form := slots false ["device_id", "device_sn", "device_type", "captured_at", "loc", "env", "bat",
    "geiger", "pms", "opc", "gateway", "service"]
  values x :=
    [x.deviceId.map Json.ofUInt32, x.deviceName.map Json.ofString, x.deviceType.map Json.ofString,
      x.capturedAt.map Json.ofInstant, x.location.map Json.ofRecord,
      x.environment.map Json.ofRecord, x.battery.map Json.ofRecord, x.geiger.map Json.ofRecord,
      x.pms.map Json.ofRecord, x.opc.map Json.ofRecord, x.gateway.map Json.ofRecord,
      x.service.map Json.ofRecord]
  ofValues?
    | [id, name, type, at_, loc, env, bat, geiger, pms, opc, gateway, service] => do
      return {
        deviceId := ← optional? Json.uint32? id
        deviceName := ← optional? Json.text? name
        deviceType := ← optional? Json.text? type
        capturedAt := ← optional? Json.instant? at_
        location := ← optional? Json.record? loc
        environment := ← optional? Json.record? env
        battery := ← optional? Json.record? bat
        geiger := ← optional? Json.record? geiger
        pms := ← optional? Json.record? pms
        opc := ← optional? Json.record? opc
        gateway := ← optional? Json.record? gateway
        service := ← optional? Json.record? service }
    | _ => none

/-! ## Categories -/

/-- The parts of a state whose changes are remembered. -/
inductive Category
  /-- The position. -/
  | location
  /-- The Geiger tubes. -/
  | geiger
  /-- The first particle counter. -/
  | pms
  /-- The second particle counter. -/
  | opc
deriving DecidableEq, Repr

namespace Category

/-- The categories in their order. -/
def all : List Category := [.location, .geiger, .pms, .opc]

/-- The name of a category. -/
def name : Category → String
  | .location => "location"
  | .geiger => "geiger"
  | .pms => "pms"
  | .opc => "opc"

end Category

/-- The record with the values of one category alone. -/
def SensorRecord.project (record : SensorRecord) : Category → SensorRecord
  | .location => { location := record.location }
  | .geiger => { geiger := record.geiger }
  | .pms => { pms := record.pms }
  | .opc => { opc := record.opc }

end FieldTelemetry
