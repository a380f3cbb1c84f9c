import FieldTelemetry.Number.Binary

/-!
# Fields of a message

The schema of the messages that devices send: every field has a tag, a name and a kind of value.
Tags never change their meaning.

## Main definitions

* `Kind`: the kinds of values, with their types and wire types
* `Field`: the fields of the schema
* `Field.tag`, `Field.name`, `Field.kind`: what the schema says about a field
* `Field.all`, `Field.ofTag?`: the fields in the order of their tags, and the field with a tag
-/

namespace FieldTelemetry.Wire

/-- The form in which a value is written. -/
inductive WireType
  /-- An integer in groups of seven bits. -/
  | varint
  /-- Eight octets. -/
  | fixed64
  /-- A length and as many octets. -/
  | delimited
  /-- The start of a group. -/
  | startGroup
  /-- The end of a group. -/
  | endGroup
  /-- Four octets. -/
  | fixed32
deriving DecidableEq, Repr

namespace WireType

/-- The number of a wire type in a key. -/
def code : WireType → Nat
  | .varint => 0
  | .fixed64 => 1
  | .delimited => 2
  | .startGroup => 3
  | .endGroup => 4
  | .fixed32 => 5

/-- The wire type with a number. -/
def ofCode? : Nat → Option WireType
  | 0 => some .varint
  | 1 => some .fixed64
  | 2 => some .delimited
  | 3 => some .startGroup
  | 4 => some .endGroup
  | 5 => some .fixed32
  | _ => none

/-- The name of a wire type in messages. -/
def name : WireType → String
  | .varint => "Varint"
  | .fixed64 => "SixtyFourBit"
  | .delimited => "LengthDelimited"
  | .startGroup => "StartGroup"
  | .endGroup => "EndGroup"
  | .fixed32 => "ThirtyTwoBit"

end WireType

/-- The kinds of values. -/
inductive Kind
  /-- An unsigned word. -/
  | word
  /-- A signed word. -/
  | signed
  /-- A number in the single format. -/
  | real
  /-- A text. -/
  | text
deriving DecidableEq, Repr

namespace Kind

/-- The values of a kind. -/
abbrev Value : Kind → Type
  | .word => UInt32
  | .signed => Int32
  | .real => Binary32
  | .text => String

/-- The wire type of the values of a kind. -/
def wireType : Kind → WireType
  | .word => .varint
  | .signed => .varint
  | .real => .fixed32
  | .text => .delimited

instance : (kind : Kind) → DecidableEq kind.Value
  | .word => inferInstanceAs (DecidableEq UInt32)
  | .signed => inferInstanceAs (DecidableEq Int32)
  | .real => inferInstanceAs (DecidableEq Binary32)
  | .text => inferInstanceAs (DecidableEq String)

end Kind

/-- The fields of a message. -/
inductive Field
  /-- Declared kind of the transmitting device. -/
  | deviceType
  /-- Numeric device id. -/
  | deviceId
  /-- Device id as a text. -/
  | deviceName
  /-- Free text. -/
  | note
  /-- Capture time as a timestamp. -/
  | capturedAt
  /-- Capture date as six digits. -/
  | captureDate
  /-- Capture time of day as six digits. -/
  | captureTime
  /-- Seconds added to capture date and time. -/
  | captureOffset
  /-- Latitude in degrees. -/
  | latitude
  /-- Longitude in degrees. -/
  | longitude
  /-- Altitude in metres. -/
  | altitude
  /-- Air temperature in degrees Celsius. -/
  | temperature
  /-- Relative humidity in percent. -/
  | humidity
  /-- Barometric pressure in pascals. -/
  | pressure
  /-- Battery voltage. -/
  | voltage
  /-- Battery charge in percent. -/
  | charge
  /-- Battery current in milliamperes. -/
  | current
  /-- Counts per minute of the first tube. -/
  | tube0
  /-- Counts per minute of the second tube. -/
  | tube1
  /-- Fine particles up to 1.0 micrometres, first counter. -/
  | pmsPm1
  /-- Fine particles up to 2.5 micrometres, first counter. -/
  | pmsPm25
  /-- Fine particles up to 10 micrometres, first counter. -/
  | pmsPm10
  /-- Sampling period of the first counter in seconds. -/
  | pmsSeconds
  /-- Fine particles up to 1.0 micrometres, second counter. -/
  | opcPm1
  /-- Fine particles up to 2.5 micrometres, second counter. -/
  | opcPm25
  /-- Fine particles up to 10 micrometres, second counter. -/
  | opcPm10
  /-- Sampling period of the second counter in seconds. -/
  | opcSeconds
  /-- First relay on the way. -/
  | relay1
  /-- Second relay on the way. -/
  | relay2
  /-- Third relay on the way. -/
  | relay3
  /-- Fourth relay on the way. -/
  | relay4
  /-- Fifth relay on the way. -/
  | relay5
  /-- Version of the stamp that the message sets. -/
  | stampVersion
  /-- Stamp that the message sets or refers to. -/
  | stamp
deriving DecidableEq, Repr

namespace Field

/-- The tag of a field. -/
def tag : Field → Nat
  | .deviceType => 1
  | .deviceId => 2
  | .deviceName => 3
  | .note => 4
  | .capturedAt => 5
  | .captureDate => 6
  | .captureTime => 7
  | .captureOffset => 8
  | .latitude => 10
  | .longitude => 11
  | .altitude => 12
  | .temperature => 20
  | .humidity => 21
  | .pressure => 22
  | .voltage => 30
  | .charge => 31
  | .current => 32
  | .tube0 => 40
  | .tube1 => 41
  | .pmsPm1 => 50
  | .pmsPm25 => 51
  | .pmsPm10 => 52
  | .pmsSeconds => 53
  | .opcPm1 => 60
  | .opcPm25 => 61
  | .opcPm10 => 62
  | .opcSeconds => 63
  | .relay1 => 70
  | .relay2 => 71
  | .relay3 => 72
  | .relay4 => 73
  | .relay5 => 74
  | .stampVersion => 80
  | .stamp => 81

/-- The name of a field. -/
def name : Field → String
  | .deviceType => "device_type"
  | .deviceId => "device_id"
  | .deviceName => "device_id_string"
  | .note => "message"
  | .capturedAt => "captured_at"
  | .captureDate => "captured_at_date"
  | .captureTime => "captured_at_time"
  | .captureOffset => "captured_at_offset"
  | .latitude => "latitude"
  | .longitude => "longitude"
  | .altitude => "altitude"
  | .temperature => "env_temperature"
  | .humidity => "env_humidity"
  | .pressure => "env_pressure"
  | .voltage => "bat_voltage"
  | .charge => "bat_soc"
  | .current => "bat_current"
  | .tube0 => "cpm0"
  | .tube1 => "cpm1"
  | .pmsPm1 => "pms_pm01_0"
  | .pmsPm25 => "pms_pm02_5"
  | .pmsPm10 => "pms_pm10_0"
  | .pmsSeconds => "pms_csecs"
  | .opcPm1 => "opc_pm01_0"
  | .opcPm25 => "opc_pm02_5"
  | .opcPm10 => "opc_pm10_0"
  | .opcSeconds => "opc_csecs"
  | .relay1 => "relay_device1"
  | .relay2 => "relay_device2"
  | .relay3 => "relay_device3"
  | .relay4 => "relay_device4"
  | .relay5 => "relay_device5"
  | .stampVersion => "stamp_version"
  | .stamp => "stamp"

/-- The kind of the values of a field. -/
def kind : Field → Kind
  | .deviceType | .captureOffset | .altitude => .signed
  | .deviceId | .captureDate | .captureTime | .tube0 | .tube1 | .pmsSeconds | .opcSeconds
  | .relay1 | .relay2 | .relay3 | .relay4 | .relay5 | .stampVersion | .stamp => .word
  | .latitude | .longitude | .temperature | .humidity | .pressure | .voltage | .charge
  | .current | .pmsPm1 | .pmsPm25 | .pmsPm10 | .opcPm1 | .opcPm25 | .opcPm10 => .real
  | .deviceName | .note | .capturedAt => .text

/-- The values of a field. -/
abbrev Value (f : Field) : Type := f.kind.Value

/-- The fields in the order of their tags. -/
def all : List Field :=
  [.deviceType, .deviceId, .deviceName, .note, .capturedAt, .captureDate, .captureTime,
    .captureOffset, .latitude, .longitude, .altitude, .temperature, .humidity, .pressure,
    .voltage, .charge, .current, .tube0, .tube1, .pmsPm1, .pmsPm25, .pmsPm10, .pmsSeconds,
    .opcPm1, .opcPm25, .opcPm10, .opcSeconds, .relay1, .relay2, .relay3, .relay4, .relay5,
    .stampVersion, .stamp]

theorem mem_all (f : Field) : f ∈ all := by cases f <;> decide

/-- The field with a tag. -/
def ofTag? (tag : Nat) : Option Field := all.find? fun f => f.tag == tag

/-- The relays that a message went through, in their order. They say how a message came, not what
it says. -/
def relays : List Field := [.relay1, .relay2, .relay3, .relay4, .relay5]

/-- The field names a relay. -/
def IsRelay (f : Field) : Prop := f ∈ relays

instance (f : Field) : Decidable f.IsRelay := by unfold IsRelay; infer_instance

/-- The field with a name. -/
def ofName? (name : String) : Option Field := all.find? fun f => f.name == name

end Field

end FieldTelemetry.Wire
