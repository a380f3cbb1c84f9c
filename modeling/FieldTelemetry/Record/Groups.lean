import FieldTelemetry.Json.Record
import FieldTelemetry.Record.Overlay

/-!
# Groups of a record

The groups of values that a sensor record holds. Every value is optional, and a group is written in
JSON with the values it has.

## Main definitions

* `Location`, `Environment`, `Battery`, `Geiger`, `Particulate`: what a device measures
* `Reception`, `ServiceInfo`: how a record came to the collector
-/

namespace FieldTelemetry

open Json (slots optional?)
open Time (Instant)

/-! ## Location -/

/-- A position. -/
structure Location where
  /-- Latitude in degrees. -/
  lat : Option Binary32 := none
  /-- Longitude in degrees. -/
  lon : Option Binary32 := none
  /-- Altitude in metres. -/
  alt : Option Int32 := none
deriving DecidableEq, Inhabited

instance : Overlay Location where
  overlay a b :=
    ⟨b.lat.or a.lat, b.lon.or a.lon, b.alt.or a.alt⟩

instance : Alike Location where
  alike a b :=
    sameNumber a.lat b.lat && sameNumber a.lon b.lon && a.alt == b.alt

instance : Json.Record Location where
  form := slots false ["lat", "lon", "alt"]
  values x :=
    [x.lat.map Json.ofSingle, x.lon.map Json.ofSingle, x.alt.map Json.ofInt32]
  ofValues?
    | [lat, lon, alt] => do
      return ⟨← optional? Json.single? lat, ← optional? Json.single? lon,
        ← optional? Json.int32? alt⟩
    | _ => none

/-! ## Environment -/

/-- Readings of the surroundings. -/
structure Environment where
  /-- Temperature in degrees Celsius. -/
  temp : Option Binary32 := none
  /-- Relative humidity in percent. -/
  humid : Option Binary32 := none
  /-- Pressure in pascals. -/
  press : Option Binary32 := none
deriving DecidableEq, Inhabited

instance : Overlay Environment where
  overlay a b :=
    ⟨b.temp.or a.temp, b.humid.or a.humid, b.press.or a.press⟩

instance : Alike Environment where
  alike a b :=
    sameNumber a.temp b.temp && sameNumber a.humid b.humid && sameNumber a.press b.press

instance : Json.Record Environment where
  form := slots false ["temp", "humid", "press"]
  values x :=
    [x.temp.map Json.ofSingle, x.humid.map Json.ofSingle, x.press.map Json.ofSingle]
  ofValues?
    | [temp, humid, press] => do
      return ⟨← optional? Json.single? temp, ← optional? Json.single? humid,
        ← optional? Json.single? press⟩
    | _ => none

/-! ## Battery -/

/-- The state of a battery. -/
structure Battery where
  /-- Voltage. -/
  voltage : Option Binary32 := none
  /-- Charge in percent. -/
  soc : Option Binary32 := none
  /-- Current in milliamperes. -/
  current : Option Binary32 := none
deriving DecidableEq, Inhabited

instance : Overlay Battery where
  overlay a b :=
    ⟨b.voltage.or a.voltage, b.soc.or a.soc, b.current.or a.current⟩

instance : Alike Battery where
  alike a b :=
    sameNumber a.voltage b.voltage && sameNumber a.soc b.soc && sameNumber a.current b.current

instance : Json.Record Battery where
  form := slots false ["voltage", "soc", "current"]
  values x :=
    [x.voltage.map Json.ofSingle, x.soc.map Json.ofSingle, x.current.map Json.ofSingle]
  ofValues?
    | [voltage, soc, current] => do
      return ⟨← optional? Json.single? voltage, ← optional? Json.single? soc,
        ← optional? Json.single? current⟩
    | _ => none

/-! ## Geiger -/

/-- Counts of two Geiger tubes. -/
structure Geiger where
  /-- Counts per minute of the first tube. -/
  cpm0 : Option UInt32 := none
  /-- Counts per minute of the second tube. -/
  cpm1 : Option UInt32 := none
deriving DecidableEq, Inhabited

instance : Overlay Geiger where
  overlay a b :=
    ⟨b.cpm0.or a.cpm0, b.cpm1.or a.cpm1⟩

instance : Alike Geiger where
  alike a b :=
    a.cpm0 == b.cpm0 && a.cpm1 == b.cpm1

instance : Json.Record Geiger where
  form := slots false ["cpm0", "cpm1"]
  values x :=
    [x.cpm0.map Json.ofUInt32, x.cpm1.map Json.ofUInt32]
  ofValues?
    | [cpm0, cpm1] => do
      return ⟨← optional? Json.uint32? cpm0, ← optional? Json.uint32? cpm1⟩
    | _ => none

/-! ## Particulate -/

/-- Readings of a particle counter. -/
structure Particulate where
  /-- Particles up to 1.0 micrometres. -/
  pm01_0 : Option Binary32 := none
  /-- Particles up to 2.5 micrometres. -/
  pm02_5 : Option Binary32 := none
  /-- Particles up to 10 micrometres. -/
  pm10_0 : Option Binary32 := none
  /-- Sampling period in seconds. -/
  csecs : Option UInt32 := none
deriving DecidableEq, Inhabited

instance : Overlay Particulate where
  overlay a b :=
    ⟨b.pm01_0.or a.pm01_0, b.pm02_5.or a.pm02_5, b.pm10_0.or a.pm10_0, b.csecs.or a.csecs⟩

instance : Alike Particulate where
  alike a b :=
    sameNumber a.pm01_0 b.pm01_0 && sameNumber a.pm02_5 b.pm02_5 && sameNumber a.pm10_0 b.pm10_0
      && a.csecs == b.csecs

instance : Json.Record Particulate where
  form := slots false ["pm01_0", "pm02_5", "pm10_0", "csecs"]
  values x :=
    [x.pm01_0.map Json.ofSingle, x.pm02_5.map Json.ofSingle, x.pm10_0.map Json.ofSingle,
      x.csecs.map Json.ofUInt32]
  ofValues?
    | [pm01_0, pm02_5, pm10_0, csecs] => do
      return ⟨← optional? Json.single? pm01_0, ← optional? Json.single? pm02_5,
        ← optional? Json.single? pm10_0, ← optional? Json.uint32? csecs⟩
    | _ => none

/-! ## Reception -/

/-- How a gateway heard a message. -/
structure Reception where
  /-- The gateway. -/
  id : Option String := none
  /-- Latitude of the gateway. -/
  lat : Option Binary32 := none
  /-- Longitude of the gateway. -/
  lon : Option Binary32 := none
  /-- Altitude of the gateway. -/
  alt : Option Int32 := none
  /-- Ratio of signal to noise. -/
  snr : Option Binary32 := none
  /-- Name of the place of the gateway. -/
  location : Option String := none
deriving DecidableEq, Inhabited

instance : Overlay Reception where
  overlay a b :=
    ⟨b.id.or a.id, b.lat.or a.lat, b.lon.or a.lon, b.alt.or a.alt, b.snr.or a.snr,
      b.location.or a.location⟩

instance : Alike Reception where
  alike a b :=
    a.id == b.id && sameNumber a.lat b.lat && sameNumber a.lon b.lon && a.alt == b.alt
      && sameNumber a.snr b.snr && a.location == b.location

instance : Json.Record Reception where
  form := slots false ["id", "lat", "lon", "alt", "snr", "location"]
  values x :=
    [x.id.map Json.ofString, x.lat.map Json.ofSingle, x.lon.map Json.ofSingle,
      x.alt.map Json.ofInt32, x.snr.map Json.ofSingle, x.location.map Json.ofString]
  ofValues?
    | [id, lat, lon, alt, snr, location] => do
      return ⟨← optional? Json.text? id, ← optional? Json.single? lat,
        ← optional? Json.single? lon, ← optional? Json.int32? alt, ← optional? Json.single? snr,
        ← optional? Json.text? location⟩
    | _ => none

/-! ## ServiceInfo -/

/-- How a record came to the collector. -/
structure ServiceInfo where
  /-- When the collector received it. -/
  uploadedAt : Option Instant := none
  /-- The way it came. -/
  transport : Option String := none
  /-- Checksum of its message in hexadecimal. -/
  checksum : Option String := none
  /-- Number of its request in the intake. -/
  sequence : Option UInt64 := none
deriving DecidableEq, Inhabited

instance : Overlay ServiceInfo where
  overlay a b :=
    ⟨b.uploadedAt.or a.uploadedAt, b.transport.or a.transport, b.checksum.or a.checksum,
      b.sequence.or a.sequence⟩

instance : Alike ServiceInfo where
  alike a b :=
    a.uploadedAt == b.uploadedAt && a.transport == b.transport && a.checksum == b.checksum
      && a.sequence == b.sequence

instance : Json.Record ServiceInfo where
  form := slots false ["uploaded_at", "transport", "checksum", "sequence"]
  values x :=
    [x.uploadedAt.map Json.ofInstant, x.transport.map Json.ofString, x.checksum.map Json.ofString,
      x.sequence.map Json.ofUInt64]
  ofValues?
    | [uploadedAt, transport, checksum, sequence] => do
      return ⟨← optional? Json.instant? uploadedAt, ← optional? Json.text? transport,
        ← optional? Json.text? checksum, ← optional? Json.uint64? sequence⟩
    | _ => none

end FieldTelemetry
