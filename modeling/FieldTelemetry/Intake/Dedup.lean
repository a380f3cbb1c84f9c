import FieldTelemetry.Ring
import FieldTelemetry.Time.Instant
import FieldTelemetry.Time.Span

/-!
# Suppression of copies

One transmission may arrive several times, over different relays and gateways. The checksums of the
messages that were let through most recently are remembered, and a checksum that is found among
them within a window of time belongs to a copy.

## Main definitions

* `Sighting`: a checksum with the time when its message was let through
* `DedupRing.check`: whether a checksum belongs to a copy, remembering it if not
-/

namespace FieldTelemetry.Intake

open Time (Instant Span)

/-- A checksum with the time when its message was let through. -/
structure Sighting where
  /-- The checksum. -/
  checksum : UInt32
  /-- When its message was let through. -/
  seenAt : Instant
deriving DecidableEq

/-- Whether a message is a copy. -/
inductive Verdict
  /-- It is not, and is now remembered. -/
  | fresh
  /-- It is a copy of a message let through that long ago. -/
  | copy (age : Span)
deriving DecidableEq

/-- The messages let through most recently, and how long they are remembered. -/
structure DedupRing (capacity : Nat) where
  /-- The messages let through most recently. -/
  ring : Ring capacity Sighting
  /-- How long a message suppresses its copies. -/
  window : Span
deriving DecidableEq

/-- The number of messages that are remembered. -/
def dedupCapacity : Nat := 25

/-- The usual window: one minute. -/
def dedupWindow : Span := Span.ofMillis 60000

namespace DedupRing

variable {capacity : Nat}

/-- Nothing is remembered. -/
def empty (window : Span) : DedupRing capacity := ⟨.empty, window⟩

/-- The most recent sighting of a checksum within the window. -/
def find? (dedup : DedupRing capacity) (checksum : UInt32) (now : Instant) : Option Sighting :=
  dedup.ring.entries.find? fun sighting =>
    sighting.checksum == checksum && now.since sighting.seenAt < dedup.window

/-- Whether a checksum belongs to a copy. If it does not, it is remembered. -/
def check (dedup : DedupRing capacity) (checksum : UInt32) (now : Instant) :
    Verdict × DedupRing capacity :=
  match dedup.find? checksum now with
  | some sighting => (.copy (now.since sighting.seenAt), dedup)
  | none => (.fresh, { dedup with ring := dedup.ring.push ⟨checksum, now⟩ })

end DedupRing

end FieldTelemetry.Intake
