import FieldTelemetry.Wire.Message
import FieldTelemetry.Wire.Payload

/-!
# Decoded messages

Octets are decoded by an automaton that reads one at a time. The last value of a field counts, and
fields that are not in the schema are skipped, with the groups they may make up.

## Main definitions

* `DecodeError`: why octets are no message, and in which field
* `OpenPayload.step`: the automaton of one payload
* `Decoder.step`, `Decoder.finish`: the automaton of a message
* `Message.decode`: the message of octets
-/

namespace FieldTelemetry.Wire

/-- Why octets are not a message, with the field in whose value they fail. -/
structure DecodeError where
  /-- The field, if it is in the schema. -/
  field : Option Field
  /-- The reason. -/
  reason : DecodeReason
deriving DecidableEq, Repr

/-- The wording of a decoding error. -/
def DecodeError.message (error : DecodeError) : String :=
  let field := match error.field with
    | some f => "TelecastMessage." ++ f.name ++ ": "
    | none => ""
  "decode failed: failed to decode Protobuf message: " ++ field ++ error.reason.message

/-! ## Payloads -/

/-- An integer that is being read. -/
structure OpenVarint where
  /-- The groups so far as a number. -/
  value : Nat
  /-- The number of groups so far. -/
  count : Nat
deriving DecidableEq, Repr

/-- An integer of which nothing has been read. -/
def OpenVarint.start : OpenVarint := ⟨0, 0⟩

/-- One group further: the integer that is complete, or still open. The tenth group has one bit
left. -/
def OpenVarint.step (v : OpenVarint) (b : UInt8) : Except DecodeReason (OpenVarint ⊕ Nat) :=
  let value := v.value + b.toNat % 128 * Nat.pow 128 v.count
  -- Nine groups hold 63 bits.
  if 9 ≤ v.count ∧ 2 ≤ b.toNat then .error .varint
  else if b.toNat < 128 then .ok (.inr value)
  else .ok (.inl ⟨value, v.count + 1⟩)

/-- A payload that is being read. -/
inductive OpenPayload
  /-- An integer. -/
  | integer (v : OpenVarint)
  /-- The length of octets. -/
  | length (v : OpenVarint)
  /-- Octets, newest first, and how many are missing. -/
  | octets (found : Octets) (missing : Nat)
deriving DecidableEq, Repr

namespace OpenPayload

/-- A payload with a wire type of which nothing has been read. A group is none. -/
def start? : WireType → Option OpenPayload
  | .varint => some (.integer .start)
  | .fixed64 => some (.octets [] 8)
  | .delimited => some (.length .start)
  | .fixed32 => some (.octets [] 4)
  | .startGroup => none
  | .endGroup => none

/-- One octet further: the payload that is complete, or still open. -/
def step (p : OpenPayload) (b : UInt8) : Except DecodeReason (OpenPayload ⊕ Payload) :=
  match p with
  | .integer v => do
    match ← v.step b with
    | .inl v => return .inl (.integer v)
    | .inr n => return .inr (.integer n)
  | .length v => do
    match ← v.step b with
    | .inl v => return .inl (.length v)
    | .inr 0 => return .inr (.octets [])
    | .inr n => return .inl (.octets [] n)
  | .octets found missing =>
    if missing ≤ 1 then .ok (.inr (.octets (b :: found).reverse))
    else .ok (.inl (.octets (b :: found) (missing - 1)))

/-- Why the octets must not end within a payload. -/
def unfinished : OpenPayload → DecodeReason
  | .integer _ => .varint
  | .length _ => .varint
  | .octets _ _ => .underflow

end OpenPayload

/-! ## Messages -/

/-- What the automaton is in the middle of. -/
inductive Reading
  /-- A key of the message. -/
  | key (v : OpenVarint)
  /-- The value of a field. -/
  | value (f : Field) (p : OpenPayload)
  /-- A key within groups that are skipped, by their tags, innermost first. -/
  | skippedKey (groups : List Nat) (v : OpenVarint)
  /-- A value that is skipped, within such groups. -/
  | skippedValue (groups : List Nat) (p : OpenPayload)
deriving DecidableEq, Repr

/-- The automaton: the message so far and what it is in the middle of. -/
structure Decoder where
  /-- The message so far. -/
  message : Message
  /-- What the automaton is in the middle of. -/
  reading : Reading
deriving DecidableEq

namespace Decoder

/-- The number of groups that may be open where a field is skipped. -/
def groupLimit : Nat := 100

/-- The automaton in front of a field. -/
def start (m : Message) : Decoder := ⟨m, .key .start⟩

/-- Tag and wire type of a key. -/
def splitKey (n : Nat) : Except DecodeError (Nat × WireType) :=
  if UInt32.size ≤ n then .error ⟨none, .key n⟩
  else
    match WireType.ofCode? (n % 8) with
    | none => .error ⟨none, .wireType (n % 8)⟩
    | some wireType => if n / 8 = 0 then .error ⟨none, .tag⟩ else .ok (n / 8, wireType)

/-- The automaton behind a skipped value or group, in front of the next key. -/
def skipped (m : Message) (groups : List Nat) : Decoder :=
  match groups with
  | [] => start m
  | tag :: groups => ⟨m, .skippedKey (tag :: groups) .start⟩

/-- The automaton behind the key of a field that is skipped. -/
def skip (m : Message) (groups : List Nat) (tag : Nat) (wireType : WireType) :
    Except DecodeError Decoder :=
  match wireType with
  | .startGroup => .ok (skipped m (tag :: groups))
  | .endGroup => .error ⟨none, .endGroup⟩
  | wireType =>
    match OpenPayload.start? wireType with
    | some p => .ok ⟨m, .skippedValue groups p⟩
    | none => .error ⟨none, .endGroup⟩

/-- The automaton behind a key of the message. -/
def field (m : Message) (tag : Nat) (wireType : WireType) : Except DecodeError Decoder :=
  match Field.ofTag? tag with
  | none => skip m [] tag wireType
  | some f =>
    let expected := f.kind.wireType
    if wireType ≠ expected then .error ⟨some f, .wrongWireType wireType expected⟩
    else
      match OpenPayload.start? expected with
      | some p => .ok ⟨m, .value f p⟩
      | none => .error ⟨some f, .endGroup⟩

/-- The automaton behind a key within groups that are skipped. -/
def skippedField (m : Message) (groups : List Nat) (tag : Nat) (wireType : WireType) :
    Except DecodeError Decoder :=
  if wireType = .endGroup then
    match groups with
    | innermost :: groups =>
      if tag = innermost then .ok (skipped m groups) else .error ⟨none, .endGroup⟩
    | [] => .error ⟨none, .endGroup⟩
  -- The end of a group is found at any depth; only what would be skipped in it counts.
  else if groupLimit ≤ groups.length then .error ⟨none, .tooDeep⟩
  else skip m groups tag wireType

/-- One octet further. -/
def step (d : Decoder) (b : UInt8) : Except DecodeError Decoder :=
  let m := d.message
  match d.reading with
  | .key v => do
    match ← (v.step b).mapError (⟨none, ·⟩) with
    | .inl v => return ⟨m, .key v⟩
    | .inr n =>
      let (tag, wireType) ← splitKey n
      field m tag wireType
  | .value f p => do
    match ← (p.step b).mapError (⟨some f, ·⟩) with
    | .inl p => return ⟨m, .value f p⟩
    | .inr payload =>
      let value ← (f.kind.ofPayload payload).mapError (⟨some f, ·⟩)
      return start (m.set f value)
  | .skippedKey groups v => do
    match ← (v.step b).mapError (⟨none, ·⟩) with
    | .inl v => return ⟨m, .skippedKey groups v⟩
    | .inr n =>
      let (tag, wireType) ← splitKey n
      skippedField m groups tag wireType
  | .skippedValue groups p => do
    match ← (p.step b).mapError (⟨none, ·⟩) with
    | .inl p => return ⟨m, .skippedValue groups p⟩
    | .inr _ => return skipped m groups

/-- The message, if the octets may end here. -/
def finish (d : Decoder) : Except DecodeError Message :=
  match d.reading with
  -- Octets may end between two fields and nowhere else.
  | .key v => if v.count = 0 then .ok d.message else .error ⟨none, .varint⟩
  | .value f p => .error ⟨some f, p.unfinished⟩
  | .skippedKey _ _ => .error ⟨none, .varint⟩
  | .skippedValue _ p => .error ⟨none, p.unfinished⟩

end Decoder

/-- The message that octets encode. -/
def Message.decode (octets : Octets) : Except DecodeError Message := do
  (← octets.foldlM Decoder.step (.start .empty)).finish

end FieldTelemetry.Wire
