import FieldTelemetry.Json.Record

/-!
# Origins

Where the latest update of a snapshot came from. The label of a transport has the address of the
peer behind its first colon.

## Main definitions

* `Origin`: where an update came from
* `Origin.ofTransport`: the origin that the label of a transport tells
-/

namespace FieldTelemetry.Store

open Json (slots optional? required?)

/-- Where an update came from. -/
structure Origin where
  /-- The label of the transport. -/
  transport : String
  /-- The address of the peer. -/
  address : Option String := none
  /-- Name of the place of the gateway. -/
  location : Option String := none
  /-- Latitude of the gateway. -/
  lat : Option Binary32 := none
  /-- Longitude of the gateway. -/
  lon : Option Binary32 := none
deriving DecidableEq

/-- What stands behind the first colon of a label, if anything does. -/
def addressOf? (transport : String) : Option String :=
  match transport.toList.dropWhile (· != ':') with
  | ':' :: c :: rest => some (String.ofList (c :: rest))
  | _ => none

/-- The origin that the label of a transport tells. -/
def Origin.ofTransport (transport : String) : Origin where
  transport := transport
  address := addressOf? transport

instance : Json.Record Origin where
  form := slots false ["transport"] ++ slots true ["address", "location", "lat", "lon"]
  values x :=
    [some (Json.ofString x.transport), x.address.map Json.ofString,
      x.location.map Json.ofString, x.lat.map Json.ofSingle, x.lon.map Json.ofSingle]
  ofValues?
    | [transport, address, location, lat, lon] => do
      return ⟨← required? Json.text? transport, ← optional? Json.text? address,
        ← optional? Json.text? location, ← optional? Json.single? lat,
        ← optional? Json.single? lon⟩
    | _ => none

end FieldTelemetry.Store
