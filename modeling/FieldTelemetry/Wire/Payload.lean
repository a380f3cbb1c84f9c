import FieldTelemetry.Text.Octets
import FieldTelemetry.Wire.Field

/-!
# Payloads

The value of a field on the wire is an integer or a sequence of octets. Integers are written in
groups of seven bits, the lowest first, and all groups but the last have their top bit set.

## Main definitions

* `Payload`: the value of a field on the wire
* `varint`, `key`: integers in groups of seven bits, and the key in front of a payload
* `Kind.payload`, `Kind.ofPayload`: values of a kind as payloads, and back
* `Payload.encode`: the octets of a payload
* `DecodeReason`: why octets are no message
-/

namespace FieldTelemetry.Wire

/-- The value of a field on the wire. -/
inductive Payload
  /-- An integer of sixty-four bits. -/
  | integer (n : Nat)
  /-- Octets, of a fixed number or with their length in front. -/
  | octets (octets : Octets)
deriving DecidableEq, Repr

/-- A number in groups of seven bits, with at most `more` groups before the last. -/
def groups : (more : Nat) → (n : Nat) → Octets
  | 0, n => [UInt8.ofNat n]
  | more + 1, n =>
    if n < 128 then [UInt8.ofNat n] else UInt8.ofNat (n % 128 + 128) :: groups more (n / 128)

/-- A number of sixty-four bits in groups of seven bits. Ten groups hold it. -/
def varint (n : Nat) : Octets := groups 9 n

/-- The key of a field: its tag and the wire type of its value. -/
def key (tag : Nat) (wireType : WireType) : Octets := varint (8 * tag + wireType.code)

/-- Why octets are not a message. -/
inductive DecodeReason
  /-- An integer is not complete after ten groups or at the end, or exceeds sixty-four bits. -/
  | varint
  /-- A key exceeds thirty-two bits. -/
  | key (n : Nat)
  /-- A key has a wire type that does not exist. -/
  | wireType (code : Nat)
  /-- A key has the tag zero. -/
  | tag
  /-- A value has not the wire type of its field. -/
  | wrongWireType (got expected : WireType)
  /-- A value has more octets than there are. -/
  | underflow
  /-- A text is not UTF-8. -/
  | notText
  /-- A group ends that did not start. -/
  | endGroup
  /-- Groups nest too deep. -/
  | tooDeep
deriving DecidableEq, Repr

/-- The wording of a reason. -/
def DecodeReason.message : DecodeReason → String
  | .varint => "invalid varint"
  | .key n => "invalid key value: " ++ Text.decimal n
  | .wireType code => "invalid wire type value: " ++ Text.decimal code
  | .tag => "invalid tag value: 0"
  | .wrongWireType got expected =>
    "invalid wire type: " ++ got.name ++ " (expected " ++ expected.name ++ ")"
  | .underflow => "buffer underflow"
  | .notText => "invalid string value: data is not UTF-8 encoded"
  | .endGroup => "unexpected end group tag"
  | .tooDeep => "recursion limit reached"

/-- A number as four octets, the lowest first. -/
def fixed32 (n : UInt32) : Octets :=
  [UInt8.ofNat n.toNat, UInt8.ofNat (n.toNat / 0x100), UInt8.ofNat (n.toNat / 0x10000),
    UInt8.ofNat (n.toNat / 0x1000000)]

/-- The number of octets, the lowest first. -/
def ofFixed (octets : Octets) : Nat := octets.foldr (fun b n => b.toNat + 256 * n) 0

namespace Kind

/-- The payload of a value. Negative integers are written with sixty-four bits. -/
def payload : (kind : Kind) → kind.Value → Payload
  | .word, n => .integer n.toNat
  | .signed, n => .integer (n.toInt % UInt64.size).toNat
  | .real, x => .octets (fixed32 x.bits)
  | .text, value => .octets (Text.utf8 value)

/-- The value of a payload. Integers keep their low thirty-two bits. -/
def ofPayload : (kind : Kind) → Payload → Except DecodeReason kind.Value
  | .word, .integer n => .ok (UInt32.ofNat n)
  | .signed, .integer n => .ok (Int32.ofNat n)
  | .real, .octets octets => .ok (⟨UInt32.ofNat (ofFixed octets)⟩ : Binary32)
  | .text, .octets octets =>
    match Text.ofUtf8? octets with
    | some value => .ok value
    | none => .error .notText
  | kind, .integer _ => .error (.wrongWireType .varint kind.wireType)
  | kind, .octets _ => .error (.wrongWireType .delimited kind.wireType)

end Kind

/-- The octets of a payload with a wire type. -/
def Payload.encode (wireType : WireType) : Payload → Octets
  | .integer n => varint n
  | .octets content =>
    if wireType = .delimited then varint content.length ++ content else content

end FieldTelemetry.Wire
