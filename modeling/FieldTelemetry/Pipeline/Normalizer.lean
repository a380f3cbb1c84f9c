import FieldTelemetry.Delivery.Command
import FieldTelemetry.Intake.Dedup
import FieldTelemetry.Intake.Request
import FieldTelemetry.Pipeline.Tally
import FieldTelemetry.Record.SensorRecord
import FieldTelemetry.Stamp.Cache
import FieldTelemetry.Wire.Bulk
import FieldTelemetry.Wire.Checksum
import FieldTelemetry.Wire.Decode

/-!
# From requests to outcomes

The normalizer takes the messages out of a request and decides what becomes of each: copies are
dropped, messages without measurements are commands, and the others get what their stamps stand
for and become readings.

## Main definitions

* `Outcome`: what becomes of a message
* `Normalizer`: the copies, stamps and counts that decisions depend on
* `Normalizer.processMessage`, `Normalizer.process`: the outcomes of one message and of a request
-/

namespace FieldTelemetry.Pipeline

open Delivery (Command)
open Intake (DedupRing Request)
open Stamp (Cache StampOutcome StampStore)
open Time (Instant)
open Wire (Message)

/-- Why a message, or a whole request, was dropped. -/
inductive RejectReason
  /-- The request does not hold the messages that it announces. -/
  | framing
  /-- The octets are no message. -/
  | malformed
  /-- The message refers to a stamp, and none of the device is known. -/
  | unstampable
  /-- The message has no sender. -/
  | unidentified
deriving DecidableEq, Repr

/-- What becomes of a message. -/
inductive Outcome
  /-- It is a reading. -/
  | accepted (record : SensorRecord)
  /-- It is a copy. -/
  | duplicate (checksum : UInt32)
  /-- It is a command. -/
  | command (command : Command)
  /-- It is dropped. -/
  | rejected (reason : RejectReason) (detail : String)
deriving DecidableEq

/-- A message or an update that breaks the collector down instead of being refused. -/
inductive Breakdown
  /-- A capture time leads out of the calendar. -/
  | outOfCalendar
deriving DecidableEq, Repr

/-- What the outcomes of messages depend on. -/
structure Normalizer where
  /-- The messages that suppress their copies. -/
  dedup : DedupRing Intake.dedupCapacity
  /-- The stamps in memory. -/
  stamps : Cache := {}

namespace Normalizer

/-- A normalizer with a window for copies. -/
def new (window : Time.Span) : Normalizer := { dedup := .empty window }

/-- The state of a normalizer at work: itself, the counts and the stamp files. -/
structure State (σ : Type) where
  /-- The normalizer. -/
  normalizer : Normalizer
  /-- The counts. -/
  tally : Tally := .zero
  /-- The stamp files. -/
  files : σ

/-- The command that a message is. -/
def commandOf (request : Request) (m : Message) : Command where
  device := m.entityId?
  deviceType := m.deviceType?.map Wire.DeviceType.label
  text := (m .note : Option String).getD ""
  transport := request.transport

/-- The reading that a message is. -/
def recordOf (request : Request) (checksum : UInt32) (m : Message) (capturedAt : Option Instant)
    (approximated : Bool) : SensorRecord :=
  { SensorRecord.ofMessage m capturedAt with
    gateway := request.hints.reception?
    service := some {
      uploadedAt := some request.receivedAt
      transport := some request.transport
      checksum := some (Text.paddedHex 8 checksum.toNat)
      sequence := some (.ofNat request.sequence) }
    approximated }

/-- The capture time of a message. One that denotes no instant counts as none. -/
def capturedAt? (m : Message) : Except Breakdown (Option Instant) :=
  match m.captureTime with
  | .ok time => .ok time
  -- The calendar ends while seconds are added, which is no fault of the text.
  | .error .outOfCalendar => .error .outOfCalendar
  | .error _ => .ok none

/-- The reading got the place of another stamp than its own. -/
def isDegraded : StampOutcome → Bool
  | .degraded _ _ => true
  | _ => false

variable {σ : Type} [StampStore σ]

/-- The outcome of a message with measurements from a device. -/
def processReading (request : Request) (checksum : UInt32) (m : Message) (device : String)
    (now : Instant) (state : State σ) : Except Breakdown (Outcome × State σ) := do
  let (result, stamps, files) := state.normalizer.stamps.process device m now state.files
  let normalizer := { state.normalizer with stamps }
  let tally := state.tally
  match result with
  | .error error =>
    return (.rejected .unstampable error.message, ⟨normalizer, tally.bump .unstampable, files⟩)
  | .ok (outcome, m) =>
    let capturedAt ← capturedAt? m
    let degraded := isDegraded outcome
    let tally := if degraded then tally.bump .degraded else tally
    let tally := tally.bump .accepted
    return (.accepted (recordOf request checksum m capturedAt degraded), ⟨normalizer, tally, files⟩)

/-- The outcome of a message that is no copy. -/
def processFresh (request : Request) (checksum : UInt32) (m : Message) (now : Instant)
    (state : State σ) : Except Breakdown (Outcome × State σ) :=
  -- Relays tell copies apart no longer, and a record does not show them.
  let m := m.withoutRelays
  let tally := state.tally
  if m.isSensor then
    match m.entityId? with
    | none =>
      .ok (.rejected .unidentified "no device id", { state with tally := tally.bump .malformed })
    | some device => processReading request checksum m device now state
  else
    .ok (.command (commandOf request m), { state with tally := tally.bump .commands })

/-- The outcome of one message of a request. -/
def processMessage (request : Request) (octets : Octets) (now : Instant) (state : State σ) :
    Except Breakdown (Outcome × State σ) :=
  let tally := state.tally.bump .messages
  match Message.decode octets with
  | .error error =>
    .ok (.rejected .malformed error.message, { state with tally := tally.bump .malformed })
  | .ok m =>
    -- The checksum leaves the relays out, so that copies on other ways have it too.
    let checksum := m.checksum
    match state.normalizer.dedup.check checksum now with
    | (.copy _, _) =>
      .ok (.duplicate checksum, { state with tally := tally.bump .duplicates })
    | (.fresh, dedup) =>
      processFresh request checksum m now
        { state with tally, normalizer := { state.normalizer with dedup } }

/-- The outcomes of several messages of a request, one after the other. -/
def processMessages (request : Request) (now : Instant) :
    List Octets → State σ → Except Breakdown (List Outcome × State σ)
  | [], state => .ok ([], state)
  | octets :: rest, state => do
    let (outcome, state) ← processMessage request octets now state
    let (outcomes, state) ← processMessages request now rest state
    return (outcome :: outcomes, state)

/-- The outcomes of the messages of a request, or the one outcome of a request that does not hold
the messages that it announces. -/
def process (request : Request) (now : Instant) (state : State σ) :
    Except Breakdown (List Outcome × State σ) :=
  let tally := state.tally.bump .requests
  match Wire.split request.payload with
  | .error error =>
    .ok ([.rejected .framing error.message], { state with tally := tally.bump .malformed })
  | .ok parts => processMessages request now parts { state with tally }

end Normalizer

end FieldTelemetry.Pipeline
