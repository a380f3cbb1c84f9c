import FieldTelemetry.Json.Render
import FieldTelemetry.Json.Tree
import FieldTelemetry.Stamp.StampFile
import FieldTelemetry.Store.EntityId
import FieldTelemetry.Store.Folder

/-!
# Stamps of devices

The latest stamp of every device is kept in a file that all collectors can read, and in memory. A
message that sets a stamp writes the file. A message that refers to a stamp gets place and time from
memory, or from the file when memory holds another stamp or none. When the latest stamp is another
one, the message gets its place, and the present time.

## Main definitions

* `StampStore`: where stamp files are kept
* `Cache`: the stamps in memory
* `StampOutcome`: what was done to a message
* `Cache.process`: a message with what its stamp stands for
-/

namespace FieldTelemetry.Stamp

open Store (EntityId.Valid Fetched Folder fileName)
open Time (Instant)
open Wire (Message)

/-! ## Files -/

/-- Where the stamp file of every device is kept. -/
class StampStore (σ : Type) where
  /-- The contents of the stamp file of a device. -/
  read : σ → (device : String) → Fetched × σ
  /-- Other contents for the stamp file of a device, and whether they were stored. -/
  write : σ → (device : String) → Octets → Instant → Bool × σ

/-- Stamp files are the files of a folder, for the devices whose names are ids. -/
instance : StampStore Folder where
  read folder device :=
    (if EntityId.Valid device then folder.read (fileName device) else .failed, folder)
  write folder device contents now :=
    if EntityId.Valid device then folder.replace (fileName device) contents now
    else (false, folder)

/-- The contents of a stamp file. -/
def StampFile.render (file : StampFile) : Octets := Text.utf8 (Json.ofRecord file).compact

/-- The stamp of the contents of a file, if its version is known. -/
def StampFile.ofOctets? (octets : Octets) : Option StampFile := do
  let file : StampFile ← (← Json.parse? octets).record?
  guard (file.version = knownVersion)
  return file

/-! ## Memory -/

/-- What memory holds of the stamp of a device. -/
structure Entry where
  /-- The stamp. -/
  file : StampFile
  /-- The file holds it too. -/
  valid : Bool
deriving DecidableEq

/-- The stamps in memory. -/
structure Cache where
  /-- The stamps by device. -/
  entries : Table String Entry := .empty

instance : Inhabited Cache := ⟨{}⟩

/-- What was done to a message. -/
inductive StampOutcome
  /-- It has no stamp. -/
  | unstamped
  /-- It set a stamp, which was stored or was not. -/
  | set (stamp : UInt32) (persisted : Bool)
  /-- It got the place and time of its stamp. -/
  | applied (stamp : UInt32)
  /-- It got the place of another stamp, and the present time. -/
  | degraded (requested cached : UInt32)
deriving DecidableEq, Repr

namespace Cache

variable {σ : Type} [StampStore σ]

/-- The stamp of a device in memory. -/
def entry? (cache : Cache) (device : String) : Option Entry := cache.entries.get? device

/-- The cache with a stamp that the file of a device holds. -/
def remember (cache : Cache) (device : String) (file : StampFile) : Cache :=
  ⟨cache.entries.insert device ⟨file, true⟩⟩

/-- The cache that does not rely on its stamp of a device. -/
def distrust (cache : Cache) (device : String) : Cache :=
  match cache.entry? device with
  | none => cache
  | some entry => ⟨cache.entries.insert device { entry with valid := false }⟩

/-- The stamp of a device that memory holds and the file holds too. -/
def valid? (cache : Cache) (device : String) : Option StampFile :=
  match cache.entry? device with
  | some ⟨file, true⟩ => some file
  | _ => none

/-- Memory holds the stamp of a device. -/
def hits (cache : Cache) (device : String) (stamp : UInt32) : Bool :=
  (cache.valid? device).any (·.stamp == stamp)

/-- The cache with the stamp that the file of a device holds, if it holds one. -/
def reload (cache : Cache) (device : String) (state : σ) : Cache × σ :=
  match StampStore.read state device with
  | (.contents octets, state) =>
    match StampFile.ofOctets? octets with
    | some file => (cache.remember device file, state)
    | none => (cache, state)
  | (_, state) => (cache, state)

/-- A message that sets a stamp. Memory does not hold the stamp before the file does. -/
def set (cache : Cache) (device : String) (version stamp : UInt32) (m : Message) (now : Instant)
    (state : σ) : StampOutcome × Cache × σ :=
  -- From here on the old stamp is not to be relied on, whatever becomes of the file.
  let cache := cache.distrust device
  match StampFile.capture version stamp m with
  | .error _ => (.set stamp false, cache, state)
  | .ok file =>
    -- The stamp is remembered only once a restart would find it.
    match StampStore.write state device file.render now with
    | (true, state) => (.set stamp true, cache.remember device file, state)
    | (false, state) => (.set stamp false, cache, state)

/-- A message with the place of a stamp that is not its own, and the present time. -/
def approximate (file : StampFile) (m : Message) (now : Instant) : Except StampError Message := do
  let m ← file.substituteLocation m
  -- A time of the message itself would win over the present, so none is left.
  return (m.set .capturedAt now.numeric).erase [.captureDate, .captureTime, .captureOffset]

/-- A message that refers to a stamp, by the stamp that memory holds. -/
def applyHeld (cache : Cache) (device : String) (stamp : UInt32) (m : Message) (now : Instant) :
    Except StampError (StampOutcome × Message) :=
  match cache.valid? device with
  | none => .error (.unstampable device stamp)
  | some file =>
    if file.stamp = stamp then
      match file.substitute m with
      | .ok m => .ok (.applied stamp, m.withoutStamp)
      | .error _ => .error (.unstampable device stamp)
    else
      match approximate file m now with
      | .ok m => .ok (.degraded stamp file.stamp, m.withoutStamp)
      | .error _ => .error (.unstampable device stamp)

/-- A message that refers to a stamp. The file is read when memory does not hold that stamp. -/
def apply (cache : Cache) (device : String) (stamp : UInt32) (m : Message) (now : Instant)
    (state : σ) : Except StampError (StampOutcome × Message) × Cache × σ :=
  let (cache, state) :=
    -- Another stamp than the one in memory may have been set by another collector.
    if cache.hits device stamp then (cache, state) else cache.reload device state
  (cache.applyHeld device stamp m now, cache, state)

/-- A message of a device with what its stamp stands for, and without its stamp. -/
def process (cache : Cache) (device : String) (m : Message) (now : Instant) (state : σ) :
    Except StampError (StampOutcome × Message) × Cache × σ :=
  match m.stampUse with
  | .none => (.ok (.unstamped, m), cache, state)
  | .set version stamp =>
    let (outcome, cache, state) := cache.set device version stamp m now state
    (.ok (outcome, m.withoutStamp), cache, state)
  | .apply stamp => cache.apply device stamp m now state

end Cache

end FieldTelemetry.Stamp
