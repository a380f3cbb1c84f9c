import FieldTelemetry.Intake.Hints
import FieldTelemetry.Json.Tree
import FieldTelemetry.Net.Base64
import FieldTelemetry.Upload.Header

/-!
# Envelopes

An upload is the payload itself, or an envelope in JSON that holds the payload in Base64 beside
what the gateway says. What the envelope does not say is taken from the header.

## Main definitions

* `Envelope`: an envelope
* `Envelope.unpack`: the payload and the hints of an envelope
* `hintsOf`: the hints of a header
* `contentOf`: the payload and the hints of an upload
-/

namespace FieldTelemetry.Upload

open Intake (Hints)
open Json (slots required?)
open Net (Base64.DecodeError)

/-- An envelope. -/
structure Envelope where
  /-- The payload in Base64. -/
  payload : String
  /-- What the gateway says. -/
  gateway : Option Hints := none
deriving DecidableEq

instance : Json.Record Envelope where
  form := slots false ["payload"] ++ slots true ["gateway"]
  values x := [some (Json.ofString x.payload), some (x.gateway.elim .null Json.ofRecord)]
  ofValues?
    | [payload, gateway] => do
      return ⟨← required? Json.text? payload, ← Json.optional? Json.record? gateway⟩
    | _ => none

/-- Why an upload was refused. -/
inductive UploadError
  /-- The body is no envelope. -/
  | envelope
  /-- The payload of the envelope is not in Base64. -/
  | base64 (error : Base64.DecodeError)
  /-- The payload is empty. -/
  | empty
deriving DecidableEq, Repr

/-- The wording of an error. -/
def UploadError.message : UploadError → String
  | .envelope => "bad envelope"
  | .base64 error => "bad base64 payload: " ++ error.message
  | .empty => "empty payload"

/-- The payload and the hints of an envelope. -/
def Envelope.unpack (body : Octets) : Except UploadError (Octets × Hints) :=
  match (Json.parse? body).bind Json.record? with
  | none => .error .envelope
  | some (envelope : Envelope) =>
    match Net.Base64.decode (Text.utf8 (Text.trim envelope.payload)) with
    | .error error => .error (.base64 error)
    | .ok payload => .ok (payload, envelope.gateway.getD {})

/-- What the header says about the gateway. -/
def hintsOf (header : Header) : Hints where
  id := header.value? "x-gateway-id"
  lat := header.real? "x-gateway-lat"
  lon := header.real? "x-gateway-lon"
  alt := header.signed? "x-gateway-alt"
  snr := header.real? "x-gateway-snr"
  location := header.value? "x-gateway-location"

/-- The start of a text. -/
def startsWith (start text : String) : Bool := start.toList.isPrefixOf text.toList

/-- The header announces JSON. -/
def isEnvelope (header : Header) : Bool :=
  (header.value? "content-type").any (startsWith "application/json")

/-- The client that sends an upload. -/
def clientOf (header : Header) : String := (header.value? "x-telecast-client").getD "anonymous"

/-- The payload and the hints of an upload. -/
def contentOf (header : Header) (body : Octets) : Except UploadError (Octets × Hints) := do
  let (payload, hints) ← if isEnvelope header then Envelope.unpack body else .ok (body, {})
  if payload = [] then .error .empty else .ok (payload, hints.orElse (hintsOf header))

end FieldTelemetry.Upload
