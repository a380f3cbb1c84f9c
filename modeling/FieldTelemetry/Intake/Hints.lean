import FieldTelemetry.Record.Groups

/-!
# Hints of gateways

What a gateway says about itself and about how it heard a message, beside the message.

## Main definitions

* `Hints`: what a gateway says
* `Hints.reception?`: the hints as part of a record
-/

namespace FieldTelemetry.Intake

open Json (slots optional?)

/-- What a gateway says about itself and about how it heard a message. -/
structure Hints where
  /-- The gateway. -/
  id : Option String := none
  /-- Its latitude. -/
  lat : Option Binary32 := none
  /-- Its longitude. -/
  lon : Option Binary32 := none
  /-- Its altitude. -/
  alt : Option Int32 := none
  /-- The ratio of signal to noise. -/
  snr : Option Binary32 := none
  /-- Name of its place. -/
  location : Option String := none
deriving DecidableEq, Inhabited

namespace Hints

/-- The gateway says nothing. -/
def isEmpty (hints : Hints) : Bool := hints == {}

/-- The hints as part of a record, if the gateway says anything. -/
def reception? (hints : Hints) : Option Reception :=
  if hints.isEmpty then none
  else some ⟨hints.id, hints.lat, hints.lon, hints.alt, hints.snr, hints.location⟩

/-- The hints with missing values filled from others. -/
def orElse (hints others : Hints) : Hints where
  id := hints.id.or others.id
  lat := hints.lat.or others.lat
  lon := hints.lon.or others.lon
  alt := hints.alt.or others.alt
  snr := hints.snr.or others.snr
  location := hints.location.or others.location

end Hints

instance : Json.Record Hints where
  form := slots true ["id", "lat", "lon", "alt", "snr", "location"]
  values x :=
    [x.id.map Json.ofString, x.lat.map Json.ofSingle, x.lon.map Json.ofSingle,
      x.alt.map Json.ofInt32, x.snr.map Json.ofSingle, x.location.map Json.ofString]
  ofValues?
    | [id, lat, lon, alt, snr, location] => do
      return ⟨← optional? Json.text? id, ← optional? Json.single? lat,
        ← optional? Json.single? lon, ← optional? Json.int32? alt,
        ← optional? Json.single? snr, ← optional? Json.text? location⟩
    | _ => none

end FieldTelemetry.Intake
