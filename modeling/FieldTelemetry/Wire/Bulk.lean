import FieldTelemetry.Text.Octets

/-!
# Bulk payloads

A payload is a single message, or a zero octet, the number of messages, their lengths and the
messages themselves. No message begins with a zero octet.

## Main definitions

* `FramingError`: why a payload is neither
* `split`: the messages of a payload
* `join`: the bulk payload of messages
-/

namespace FieldTelemetry.Wire

/-- Why a payload has no messages, or messages have no payload. -/
inductive FramingError
  /-- The payload is empty. -/
  | empty
  /-- More is needed than there is. -/
  | overrun (needed available : Nat)
deriving DecidableEq, Repr

/-- The wording of a framing error. -/
def FramingError.message : FramingError → String
  | .empty => "empty payload"
  | .overrun needed available =>
    "bulk framing overrun: need " ++ Text.decimal needed ++ " bytes, have "
      ++ Text.decimal available

/-- The largest number that fits in an octet. -/
def octetLimit : Nat := 255

/-- Parts of the given lengths, one behind the other. What is left over belongs to none. -/
def cut : (lengths : List Nat) → Octets → List Octets
  | [], _ => []
  | length :: lengths, octets => octets.take length :: cut lengths (octets.drop length)

/-- The messages of a bulk payload behind its first octet. Octets behind the last message are
ignored. -/
def splitBulk (rest : Octets) : Except FramingError (List Octets) :=
  match rest with
  | [] => .error (.overrun 2 1)
  | count :: rest =>
    let available := rest.length + 2
    -- The lengths must be there before their sum can be asked for.
    if rest.length < count.toNat then .error (.overrun (count.toNat + 2) available)
    else
      let lengths := (rest.take count.toNat).map UInt8.toNat
      let needed := count.toNat + 2 + lengths.foldr (· + ·) 0
      if available < needed then .error (.overrun needed available)
      else .ok (cut lengths (rest.drop count.toNat))

/-- The messages of a payload. -/
def split (payload : Octets) : Except FramingError (List Octets) :=
  match payload with
  | [] => .error .empty
  | first :: rest => if first = 0 then splitBulk rest else .ok [first :: rest]

/-- The bulk payload of messages, of which there are at most 255 with at most 255 octets each. -/
def join (messages : List Octets) : Except FramingError Octets :=
  if octetLimit < messages.length then .error (.overrun messages.length octetLimit)
  else
    match messages.find? fun message => octetLimit < message.length with
    | some message => .error (.overrun message.length octetLimit)
    | none =>
      .ok (0 :: UInt8.ofNat messages.length
        :: messages.map (fun message => UInt8.ofNat message.length) ++ messages.flatten)

end FieldTelemetry.Wire
