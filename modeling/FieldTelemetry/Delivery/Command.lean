import FieldTelemetry.Json.Record

/-!
# Commands

A message without measurements is a command: a text that goes to people instead of into the store.

## Main definitions

* `Command`: a message for people
* `Command.line`: a command on one line
-/

namespace FieldTelemetry.Delivery

open Json (slots optional? required?)

/-- A message for people. -/
structure Command where
  /-- The sender, if it is known. -/
  device : Option String
  /-- The label of the kind of the sender. -/
  deviceType : Option String
  /-- The text of the message. -/
  text : String
  /-- The label of the transport. -/
  transport : String
deriving DecidableEq

/-- A text or null. -/
def textOrNull : Option String → Json
  | some text => .ofString text
  | none => .null

instance : Json.Record Command where
  form := slots false ["device", "device_type", "text", "transport"]
  values x :=
    [some (textOrNull x.device), some (textOrNull x.deviceType), some (Json.ofString x.text),
      some (Json.ofString x.transport)]
  ofValues?
    | [device, deviceType, text, transport] => do
      return ⟨← optional? Json.text? device, ← optional? Json.text? deviceType,
        ← required? Json.text? text, ← required? Json.text? transport⟩
    | _ => none

/-- A command on one line. -/
def Command.line (command : Command) : String :=
  let sender := command.device.getD "unknown device"
  let sender := match command.deviceType with
    | some type => type ++ " " ++ sender
    | none => sender
  sender ++ " via " ++ command.transport ++ ": " ++ command.text

end FieldTelemetry.Delivery
