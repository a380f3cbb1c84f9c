import FieldTelemetry.Delivery.Post
import FieldTelemetry.Intake.Queue
import FieldTelemetry.Store.Reconcile
import FieldTelemetry.Time.Span

/-!
# Settings of a collector

The sections of the settings, apart from those of the listeners. Every section has standard values,
and a value that is not set has its standard.

## Main definitions

* `IntakeSettings`, `StoreSettings`, `DedupSettings`, `StalenessSettings`, `ExportSettings`,
  `AlertSettings`, `ServerSettings`: the sections
-/

namespace FieldTelemetry.Collector

open Delivery (Auth ExportTarget)
open Intake (Mode)
open Json (slots default? optional?)
open Time (Span)

/-! ## Intake -/

/-- The settings of the intake queue. -/
structure IntakeSettings where
  /-- What the usual capacity depends on. -/
  mode : Mode := .http
  /-- Another capacity than the usual one. -/
  capacity : Option UInt64 := none
deriving DecidableEq, Repr, Inhabited

/-- The mode of a name, or of an object with null under the name. -/
def mode? : Json → Option Mode
  | .string (some name) | .object [(some name, .null)] =>
    [Mode.http, Mode.broker].find? (·.name = name)
  | _ => none

instance : Json.Record IntakeSettings where
  form := slots true ["mode", "capacity"]
  values x := [some (.ofString x.mode.name), some (x.capacity.elim .null .ofUInt64)]
  ofValues?
    | [mode, capacity] => do
      return ⟨← default? Mode.http mode? mode, ← optional? Json.uint64? capacity⟩
    | _ => none

/-- The number of requests that the queue holds. -/
def IntakeSettings.size (settings : IntakeSettings) : Nat :=
  settings.capacity.elim settings.mode.capacity UInt64.toNat

/-! ## Snapshots -/

/-- The settings of the store. -/
structure StoreSettings where
  /-- The folder of all files. -/
  dataDir : String := "data"
  /-- Milliseconds that a reconciliation may wait before it reads. -/
  jitterMax : UInt64 := 250
  /-- Milliseconds between a write and the read that verifies it. -/
  verifyDelay : UInt64 := 50
  /-- How often a write is tried. -/
  maxAttempts : UInt32 := 8
deriving DecidableEq, Repr, Inhabited

instance : Json.Record StoreSettings where
  form := slots true ["data_dir", "jitter_max_ms", "verify_delay_ms", "max_attempts"]
  values x :=
    [some (.ofString x.dataDir), some (.ofUInt64 x.jitterMax), some (.ofUInt64 x.verifyDelay),
      some (.ofUInt32 x.maxAttempts)]
  ofValues?
    | [dataDir, jitterMax, verifyDelay, maxAttempts] => do
      let standard : StoreSettings := {}
      return ⟨← default? standard.dataDir Json.text? dataDir,
        ← default? standard.jitterMax Json.uint64? jitterMax,
        ← default? standard.verifyDelay Json.uint64? verifyDelay,
        ← default? standard.maxAttempts Json.uint32? maxAttempts⟩
    | _ => none

/-! ## Copies and staleness -/

/-- The settings of the search for copies. -/
structure DedupSettings where
  /-- Seconds within which a message with the same checksum is a copy. -/
  window : Int64 := 60
deriving DecidableEq, Repr, Inhabited

instance : Json.Record DedupSettings where
  form := slots true ["window_secs"]
  values x := [some (.ofInt x.window.toInt)]
  ofValues?
    | [window] => do return ⟨← default? (60 : Int64) Json.int64? window⟩
    | _ => none

/-- The window as a span, if it is one. -/
def DedupSettings.span? (settings : DedupSettings) : Option Span :=
  Span.ofSeconds? settings.window.toInt

/-- The settings of the watch over staleness. -/
structure StalenessSettings where
  /-- Minutes after which a device is stale. -/
  device : Int64 := 90
  /-- Minutes after which a gateway or another collector is stale. -/
  peer : Int64 := 10
  /-- Seconds between two scans. -/
  scanInterval : UInt64 := 60
deriving DecidableEq, Repr, Inhabited

instance : Json.Record StalenessSettings where
  form := slots true ["device_after_mins", "peer_after_mins", "scan_interval_secs"]
  values x :=
    [some (.ofInt x.device.toInt), some (.ofInt x.peer.toInt), some (.ofUInt64 x.scanInterval)]
  ofValues?
    | [device, peer, scanInterval] => do
      let standard : StalenessSettings := {}
      return ⟨← default? standard.device Json.int64? device,
        ← default? standard.peer Json.int64? peer,
        ← default? standard.scanInterval Json.uint64? scanInterval⟩
    | _ => none

namespace StalenessSettings

/-- The threshold of devices as a span, if it is one. -/
def deviceSpan? (settings : StalenessSettings) : Option Span :=
  Span.ofMinutes? settings.device.toInt

/-- The threshold of gateways and other collectors as a span, if it is one. -/
def peerSpan? (settings : StalenessSettings) : Option Span :=
  Span.ofMinutes? settings.peer.toInt

end StalenessSettings

/-! ## Delivery -/

/-- The settings of the delivery of readings. -/
structure ExportSettings where
  /-- The server. -/
  url : String := ""
  /-- The method of authentication. -/
  auth : Auth := .none
  /-- Seconds that a delivery may take. -/
  timeout : UInt64 := 10
  /-- How many failures in a row the operators are told of. -/
  alertAfter : UInt32 := 5
deriving DecidableEq, Repr, Inhabited

/-- The parts of the method of authentication nest to this depth, which brings the whole document to
127. -/
def authDepth : Nat := 124

instance : Json.Record ExportSettings where
  form := slots true ["url", "auth", "timeout_secs", "failure_alert_threshold"]
  values x :=
    [some (.ofString x.url), some x.auth.toJson, some (.ofUInt64 x.timeout),
      some (.ofUInt32 x.alertAfter)]
  ofValues?
    | [url, auth, timeout, alertAfter] => do
      let standard : ExportSettings := {}
      return ⟨← default? standard.url Json.text? url,
        ← default? standard.auth (Auth.ofJson? authDepth) auth,
        ← default? standard.timeout Json.uint64? timeout,
        ← default? standard.alertAfter Json.uint32? alertAfter⟩
    | _ => none

/-- Where readings are posted to. -/
def ExportSettings.target (settings : ExportSettings) : ExportTarget :=
  { url := settings.url, auth := settings.auth, timeout := settings.timeout.toNat }

/-- The settings of the messages to the operators. -/
structure AlertSettings where
  /-- The webhook, if there is one. -/
  webhook : Option String := none
  /-- Commands go to the webhook too. -/
  commands : Bool := true
  /-- Seconds that a post may take. -/
  timeout : UInt64 := 10
deriving DecidableEq, Repr, Inhabited

instance : Json.Record AlertSettings where
  form := slots true ["webhook_url", "commands", "timeout_secs"]
  values x :=
    [some (x.webhook.elim .null .ofString), some (.bool x.commands), some (.ofUInt64 x.timeout)]
  ofValues?
    | [webhook, commands, timeout] => do
      let standard : AlertSettings := {}
      return ⟨← optional? Json.text? webhook, ← default? standard.commands Json.bool? commands,
        ← default? standard.timeout Json.uint64? timeout⟩
    | _ => none

/-! ## This collector -/

/-- The settings of this collector as one of several. -/
structure ServerSettings where
  /-- The identifier of its snapshot. -/
  instanceId : String := "collector"
  /-- Seconds between two heartbeats. -/
  heartbeat : UInt64 := 60
deriving DecidableEq, Repr, Inhabited

instance : Json.Record ServerSettings where
  form := slots true ["instance_id", "heartbeat_secs"]
  values x := [some (.ofString x.instanceId), some (.ofUInt64 x.heartbeat)]
  ofValues?
    | [instanceId, heartbeat] => do
      let standard : ServerSettings := {}
      return ⟨← default? standard.instanceId Json.text? instanceId,
        ← default? standard.heartbeat Json.uint64? heartbeat⟩
    | _ => none

namespace ServerSettings

/-- The identifier can name a snapshot: it has characters, begins with no full stop and has no
slashes. -/
def Usable (settings : ServerSettings) : Prop :=
  settings.instanceId ≠ "" ∧ settings.instanceId.toList.head? ≠ some '.'
    ∧ ∀ c ∈ settings.instanceId.toList, c ≠ '/' ∧ c ≠ '\\'

instance (settings : ServerSettings) : Decidable settings.Usable :=
  -- Only the characters of the identifier are tried, not all that there are.
  have : Decidable (∀ c ∈ settings.instanceId.toList, c ≠ '/' ∧ c ≠ '\\') :=
    List.decidableBAll _ _
  inferInstanceAs (Decidable (_ ∧ _ ∧ _))

end ServerSettings

end FieldTelemetry.Collector
