import FieldTelemetry.Delivery.Command
import FieldTelemetry.Record.SensorRecord

/-!
# Delivery of readings

Readings are delivered to sinks over channels. A channel gives every delivery a deadline, and tells
the operators when a number of deliveries in a row have failed. The next delivery that succeeds ends
the row.

## Main definitions

* `SinkError`: why a delivery failed
* `Channel`, `Channel.count`: a channel, and what it does when a delivery has ended
* `Recorder`, `Desk`: a sink that keeps what it gets, and the operators
* `Outlet.send`: a delivery over a channel
-/

namespace FieldTelemetry.Delivery

/-- Why a delivery failed. -/
inductive SinkError
  /-- It did not end before its deadline. -/
  | timeout (sink : String) (millis : Nat)
  /-- The sink refused it. -/
  | failed (sink reason : String)
deriving DecidableEq, Repr

/-- The wording of an error. -/
def SinkError.message : SinkError → String
  | .timeout sink millis => sink ++ " timed out after " ++ Text.decimal millis ++ " ms"
  | .failed sink reason => sink ++ " failed: " ++ reason

/-! ## Channels -/

/-- A channel to a sink. -/
structure Channel where
  /-- The name of the sink. -/
  name : String
  /-- How long a delivery may take, in milliseconds. -/
  timeout : Nat := 10000
  /-- How many failures in a row the operators are told of. -/
  alertAfter : Nat := 5
  /-- Failures since the last success. -/
  run : Nat := 0
  /-- All failures. -/
  failures : Nat := 0
deriving DecidableEq, Repr

namespace Channel

/-- The channel with another number of failures in a row, one at least. -/
def withAlertAfter (channel : Channel) (failures : Nat) : Channel :=
  { channel with alertAfter := max failures 1 }

/-- The text about a row of failures that an error ended. -/
def alertText (channel : Channel) (error : SinkError) : String :=
  "export " ++ channel.name ++ " has failed " ++ Text.decimal channel.run
    ++ " times in a row, latest: " ++ error.message

/-- What the operators are told when a delivery has ended, and the channel afterwards. -/
def count (channel : Channel) : Except SinkError Unit → Option String × Channel
  | .ok _ => (none, { channel with run := 0 })
  | .error error =>
    let channel := { channel with run := channel.run + 1, failures := channel.failures + 1 }
    (if channel.run = channel.alertAfter then some (channel.alertText error) else none, channel)

end Channel

/-! ## Sinks -/

/-- A sink that keeps the readings that it gets, the latest last. -/
structure Recorder where
  /-- The readings. -/
  records : List SensorRecord := []
  /-- It refuses readings. -/
  failing : Bool := false
  /-- How long a delivery takes, in milliseconds. -/
  delay : Option Nat := none

namespace Recorder

/-- The name of a recorder. -/
def name : String := "recording"

/-- A delivery that may take a time. -/
def deliverWithin (recorder : Recorder) (timeout : Nat) (record : SensorRecord) :
    Except SinkError Unit × Recorder :=
  if recorder.delay.any (timeout < ·) then (.error (.timeout name timeout), recorder)
  else if recorder.failing then (.error (.failed name "configured to fail"), recorder)
  else (.ok (), { recorder with records := recorder.records ++ [record] })

end Recorder

/-- What the operators have got, the latest last. -/
structure Desk where
  /-- Texts about what happened. -/
  alerts : List String := []
  /-- Commands. -/
  commands : List Command := []

namespace Desk

/-- One more text. -/
def alert (desk : Desk) (text : String) : Desk := { desk with alerts := desk.alerts ++ [text] }

/-- One more command. -/
def deliver (desk : Desk) (command : Command) : Desk :=
  { desk with commands := desk.commands ++ [command] }

end Desk

/-- A channel and the sink that it leads to. -/
structure Outlet where
  /-- The channel. -/
  channel : Channel := { name := Recorder.name }
  /-- The sink. -/
  recorder : Recorder := {}

/-- A delivery over a channel. The operators are told when it ends a row of failures. -/
def Outlet.send (outlet : Outlet) (desk : Desk) (record : SensorRecord) :
    Except SinkError Unit × Outlet × Desk :=
  let (result, recorder) := outlet.recorder.deliverWithin outlet.channel.timeout record
  let (text, channel) := outlet.channel.count result
  (result, ⟨channel, recorder⟩, text.elim desk desk.alert)

end FieldTelemetry.Delivery
