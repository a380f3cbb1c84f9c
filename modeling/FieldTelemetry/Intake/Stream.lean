import FieldTelemetry.Intake.Listener
import FieldTelemetry.Intake.Transport

/-!
# Listening for connections

A device connects, sends its payload and ends its half of the connection. What has come by then is
one transmission. A payload has to end within a deadline, and at most one octet beyond the limit is
read of it.

## Main definitions

* `StreamSettings`: the settings of the listener
* `StreamSettings.payload`: the payload of a connection
* `StreamListener.receive`: what a connection does
-/

namespace FieldTelemetry.Intake

open Json (slots default?)
open Net (Address)
open Time (Instant)

/-- The settings of the listener for connections. -/
structure StreamSettings where
  /-- The address to listen at. -/
  bind : String := "0.0.0.0:8082"
  /-- The length of the longest payload. -/
  maxPayload : UInt64 := 65536
  /-- How many seconds a payload may take. -/
  readTimeout : UInt64 := 30
deriving DecidableEq, Repr, Inhabited

instance : Json.Record StreamSettings where
  form := slots true ["bind", "max_payload", "read_timeout_secs"]
  values x :=
    [some (.ofString x.bind), some (.ofUInt64 x.maxPayload), some (.ofUInt64 x.readTimeout)]
  ofValues?
    | [bind, maxPayload, readTimeout] => do
      let standard : StreamSettings := {}
      return ⟨← default? standard.bind Json.text? bind,
        ← default? standard.maxPayload Json.uint64? maxPayload,
        ← default? standard.readTimeout Json.uint64? readTimeout⟩
    | _ => none

/-! ## Payloads -/

/-- Why the payload of a connection was refused. -/
inductive StreamError
  /-- It did not end before the deadline. -/
  | unended (seconds : Nat)
  /-- It is longer than the limit. -/
  | oversize (limit : Nat)
deriving DecidableEq, Repr

/-- The wording of an error. -/
def StreamError.message : StreamError → String
  | .unended seconds => "protocol error: no EOF within " ++ Text.decimal seconds ++ "s"
  | .oversize limit => "protocol error: payload exceeds " ++ Text.decimal limit ++ " bytes"

/-- What has come over a connection before the deadline. -/
structure Transmission where
  /-- The octets that have come. -/
  arrived : Octets
  /-- The peer has ended its half of the connection. -/
  ended : Bool := true
deriving DecidableEq, Repr

/-- The payload of a connection. Reading stops one octet beyond the limit, whatever follows. -/
def StreamSettings.payload (settings : StreamSettings) (transmission : Transmission) :
    Except StreamError Octets :=
  let limit := settings.maxPayload.toNat
  if limit < transmission.arrived.length then .error (.oversize limit)
  else if transmission.ended then .ok transmission.arrived
  else .error (.unended settings.readTimeout.toNat)

/-! ## The listener -/

/-- The listener for connections. -/
structure StreamListener where
  /-- Its settings. -/
  settings : StreamSettings := {}
  /-- What it has counted. -/
  listener : Listener := {}
deriving DecidableEq

/-- What a connection of a peer does. An empty payload is passed over. -/
def StreamListener.receive (listener : StreamListener) (queue : Queue) (peer : Address)
    (transmission : Transmission) (now : Instant) : StreamListener × Queue :=
  match listener.settings.payload transmission with
  | .error _ => ({ listener with listener := listener.listener.countError }, queue)
  | .ok [] => (listener, queue)
  | .ok payload =>
    let transport := (Transport.connection peer).label
    let (_, counted, queue) :=
      listener.listener.submit queue { payload, transport, receivedAt := now }
    ({ listener with listener := counted }, queue)

end FieldTelemetry.Intake
