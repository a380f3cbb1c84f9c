import FieldTelemetry.Wire.Message
import FieldTelemetry.Wire.Payload

/-!
# Encoded messages

The octets of a message: its values in the order of their tags, each behind its key.

## Main definitions

* `Field.encode`: the octets of a value
* `Message.encode`: the octets of a message
-/

namespace FieldTelemetry.Wire

/-- The octets of a value of a field. -/
def Field.encode (f : Field) (value : f.Value) : Octets :=
  key f.tag f.kind.wireType ++ (f.kind.payload value).encode f.kind.wireType

/-- The octets of a message. -/
def Message.encode (m : Message) : Octets :=
  Field.all.flatMap fun f =>
    match m f with
    | some value => f.encode value
    | none => []

end FieldTelemetry.Wire
