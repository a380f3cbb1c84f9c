import FieldTelemetry.Json.Record
import FieldTelemetry.Wire.Message

/-!
# Stamp files

A stamp stands for the place and the time of measurements. A device sends them once together with
the number of the stamp, and the number alone from then on. A stamp file keeps what it sent.

## Main definitions

* `StampFile`: the place and time that a stamp stands for
* `StampFile.capture`: the stamp of a message that sets one
* `StampFile.substitute`, `StampFile.substituteLocation`: a message with what its stamp stands for
-/

namespace FieldTelemetry.Stamp

open Json (slots optional? required?)
open Wire (Message)

/-- The only version of stamps. -/
def knownVersion : UInt32 := 1

/-- Why a stamp cannot be used. -/
inductive StampError
  /-- Nothing is known of the stamp, or of any other of the device. -/
  | unstampable (device : String) (stamp : UInt32)
  /-- The version is not known. -/
  | unsupportedVersion (version : UInt32)
deriving DecidableEq, Repr

/-- The wording of an error. -/
def StampError.message : StampError → String
  | .unstampable device stamp =>
    "device " ++ device ++ " has no usable stamp for id " ++ Text.decimal stamp.toNat
  | .unsupportedVersion version => "unsupported stamp version " ++ Text.decimal version.toNat

/-- The place and time that a stamp stands for. -/
structure StampFile where
  /-- The version of the stamp. -/
  version : UInt32
  /-- The number of the stamp. -/
  stamp : UInt32
  /-- Latitude. -/
  latitude : Option Binary32 := none
  /-- Longitude. -/
  longitude : Option Binary32 := none
  /-- Altitude. -/
  altitude : Option Int32 := none
  /-- The date, in six digits. -/
  captureDate : Option UInt32 := none
  /-- The time of day, in six digits. -/
  captureTime : Option UInt32 := none
deriving DecidableEq

instance : Json.Record StampFile where
  form := slots false ["Version", "Stamp"]
    ++ slots true ["Latitude", "Longitude", "Altitude", "CapturedAtDate", "CapturedAtTime"]
  values x :=
    [some (Json.ofUInt32 x.version), some (Json.ofUInt32 x.stamp), x.latitude.map Json.ofSingle,
      x.longitude.map Json.ofSingle, x.altitude.map Json.ofInt32,
      x.captureDate.map Json.ofUInt32, x.captureTime.map Json.ofUInt32]
  ofValues?
    | [version, stamp, latitude, longitude, altitude, captureDate, captureTime] => do
      return ⟨← required? Json.uint32? version, ← required? Json.uint32? stamp,
        ← optional? Json.single? latitude, ← optional? Json.single? longitude,
        ← optional? Json.int32? altitude, ← optional? Json.uint32? captureDate,
        ← optional? Json.uint32? captureTime⟩
    | _ => none

namespace StampFile

/-- The stamp that a message sets. -/
def capture (version stamp : UInt32) (m : Message) : Except StampError StampFile :=
  if version = knownVersion then
    .ok {
      version, stamp
      latitude := m .latitude
      longitude := m .longitude
      altitude := m .altitude
      captureDate := m .captureDate
      captureTime := m .captureTime }
  else .error (.unsupportedVersion version)

/-- The message with the place of a stamp. -/
def substituteLocation (file : StampFile) (m : Message) : Except StampError Message :=
  if file.version = knownVersion then
    .ok (((m.update .latitude file.latitude).update .longitude file.longitude).update .altitude
      file.altitude)
  else .error (.unsupportedVersion file.version)

/-- The message with the place and time of a stamp. -/
def substitute (file : StampFile) (m : Message) : Except StampError Message := do
  let m ← file.substituteLocation m
  return ((m.update .capturedAt none).update .captureDate file.captureDate).update .captureTime
    file.captureTime

end StampFile

end FieldTelemetry.Stamp
