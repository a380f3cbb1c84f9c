import FieldTelemetry.Intake.Transport
import FieldTelemetry.Json.Record

/-!
# Subscribing to a broker

A broker is named by its host and its port, and the collector subscribes to its topics with one of
three degrees of care.

## Main definitions

* `BrokerSettings`: the settings of the subscription
* `BrokerAddress.ofUrl`: the host and the port that a text names
* `Care`: how carefully the broker delivers
* `BrokerSettings.check`: whether a subscription can be made
-/

namespace FieldTelemetry.Intake

open Json (slots default? optional?)

/-- The settings of the subscription. -/
structure BrokerSettings where
  /-- The broker. -/
  url : String := "mqtt://localhost:1883"
  /-- The name of the collector at the broker. -/
  clientId : String := "telecast-collector"
  /-- The topics. -/
  topic : String := "telecast/+/up"
  /-- The degree of care. -/
  qos : UInt8 := 1
  /-- Seconds between signs of life. -/
  keepAlive : UInt64 := 30
  /-- Seconds between two attempts to connect. -/
  retryDelay : UInt64 := 5
  /-- The user at the broker. -/
  username : Option String := none
  /-- The password of the user. -/
  password : Option String := none
deriving DecidableEq, Repr, Inhabited

instance : Json.Record BrokerSettings where
  form := slots true ["broker_url", "client_id", "topic", "qos", "keep_alive_secs",
    "retry_delay_secs", "username", "password"]
  values x :=
    [some (.ofString x.url), some (.ofString x.clientId), some (.ofString x.topic),
      some (.ofNat x.qos.toNat), some (.ofUInt64 x.keepAlive), some (.ofUInt64 x.retryDelay),
      some (x.username.elim .null .ofString), some (x.password.elim .null .ofString)]
  ofValues?
    | [url, clientId, topic, qos, keepAlive, retryDelay, username, password] => do
      let standard : BrokerSettings := {}
      return ⟨← default? standard.url Json.text? url,
        ← default? standard.clientId Json.text? clientId,
        ← default? standard.topic Json.text? topic, ← default? standard.qos Json.uint8? qos,
        ← default? standard.keepAlive Json.uint64? keepAlive,
        ← default? standard.retryDelay Json.uint64? retryDelay,
        ← optional? Json.text? username, ← optional? Json.text? password⟩
    | _ => none

/-! ## The broker -/

/-- Why no subscription can be made. -/
inductive BrokerError
  /-- The broker has no port. -/
  | noPort (url : String)
  /-- The broker has no host. -/
  | noHost (url : String)
  /-- The port of the broker is no number of sixteen bits. -/
  | badPort (url : String)
  /-- There is no such degree of care. -/
  | noSuchCare (qos : Nat)
deriving DecidableEq, Repr

/-- The wording of an error. -/
def BrokerError.message : BrokerError → String
  | .noPort url => "configuration error: broker url " ++ url ++ " has no port"
  | .noHost url => "configuration error: broker url " ++ url ++ " has no host"
  | .badPort url => "configuration error: broker url " ++ url ++ " has an invalid port"
  | .noSuchCare qos => "configuration error: invalid MQTT QoS " ++ Text.decimal qos

/-- Where a broker is. -/
structure BrokerAddress where
  /-- Its host. -/
  host : String
  /-- Its port. -/
  port : UInt16
deriving DecidableEq, Repr

/-- Characters without the repetitions of `start` in front of them. -/
def trimLeading (start : List Char) (cs : List Char) : List Char :=
  if h : start ≠ [] ∧ start.isPrefixOf cs then
    have shorter : cs.length - start.length < cs.length := by
      have := List.length_pos_iff.mpr h.1
      have := (List.isPrefixOf_iff_prefix.mp h.2).length_le
      omega
    trimLeading start (cs.drop start.length)
  else cs
termination_by cs.length

/-- What stands before and after the last colon. -/
def splitAtLastColon? (cs : List Char) : Option (List Char × List Char) :=
  let after := (cs.reverse.takeWhile (· ≠ ':')).reverse
  if after.length < cs.length then some (cs.take (cs.length - after.length - 1), after) else none

/-- A port, with an optional plus sign. -/
def port? (text : String) : Option UInt16 := do
  let n ← Text.unsigned? text
  if n < UInt16.size then some (.ofNat n) else none

/-- The broker that a text names. Schemes in front of the host are passed over. -/
def BrokerAddress.ofUrl (url : String) : Except BrokerError BrokerAddress :=
  -- Every repetition of the one scheme goes before the other is looked for.
  let rest := trimLeading "tcp://".toList (trimLeading "mqtt://".toList url.toList)
  match splitAtLastColon? rest with
  | none => .error (.noPort url)
  | some ([], _) => .error (.noHost url)
  | some (host, after) =>
    match port? (String.ofList after) with
    | none => .error (.badPort url)
    | some port => .ok ⟨String.ofList host, port⟩

/-! ## The subscription -/

/-- How carefully the broker delivers. -/
inductive Care
  /-- Some messages may be lost. -/
  | atMostOnce
  /-- Some messages may come again. -/
  | atLeastOnce
  /-- Every message comes once. -/
  | exactlyOnce
deriving DecidableEq, Repr

namespace BrokerSettings

/-- The degree of care. -/
def care (settings : BrokerSettings) : Except BrokerError Care :=
  match settings.qos.toNat with
  | 0 => .ok .atMostOnce
  | 1 => .ok .atLeastOnce
  | 2 => .ok .exactlyOnce
  | qos => .error (.noSuchCare qos)

/-- The broker and the degree of care, if a subscription can be made. -/
def check (settings : BrokerSettings) : Except BrokerError (BrokerAddress × Care) := do
  let address ← BrokerAddress.ofUrl settings.url
  return (address, ← settings.care)

end BrokerSettings

end FieldTelemetry.Intake
