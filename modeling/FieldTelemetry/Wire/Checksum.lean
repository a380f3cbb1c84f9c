import FieldTelemetry.Wire.Encode

/-!
# Checksums of messages

The cyclic redundancy check of thirty-two bits with the reversed polynomial `edb88320`. Copies of a
message that came over different relays have the same checksum.

## Main definitions

* `crc32`: the check of octets
* `Message.checksum`: the check of a message without its relays
-/

namespace FieldTelemetry.Wire

/-- One bit of the check further. -/
def crcBit (r : UInt32) : UInt32 :=
  if r &&& 1 = 1 then (r >>> 1) ^^^ 0xedb88320 else r >>> 1

/-- One octet of the check further. -/
def crcOctet (r : UInt32) (b : UInt8) : UInt32 :=
  (List.range 8).foldl (fun r _ => crcBit r) (r ^^^ b.toUInt32)

/-- The cyclic redundancy check of octets. -/
def crc32 (octets : Octets) : UInt32 := octets.foldl crcOctet 0xffffffff ^^^ 0xffffffff

/-- The checksum of a message: the check of what it says, without the relays it went through. -/
def Message.checksum (m : Message) : UInt32 := crc32 m.withoutRelays.encode

end FieldTelemetry.Wire
