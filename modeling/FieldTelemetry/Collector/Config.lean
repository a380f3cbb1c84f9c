import FieldTelemetry.Collector.Settings
import FieldTelemetry.Intake.Broker
import FieldTelemetry.Intake.Datagram
import FieldTelemetry.Intake.Stream
import FieldTelemetry.Json.Tree
import FieldTelemetry.Text.Quoted
import FieldTelemetry.Toml.Document
import FieldTelemetry.Upload.Settings

/-!
# The configuration of a collector

A configuration has a section for each part of a collector. The sections of the listeners and of the
export may be missing, and then the collector does without them. It is written in TOML or in JSON.

## Main definitions

* `Config`: a configuration
* `Config.validate`: what a collector cannot run with
* `Config.ofToml`, `Config.ofJson`: the configuration of a text
-/

namespace FieldTelemetry.Collector

open Intake (BrokerSettings DatagramSettings StreamSettings)
open Json (Record Slot slots default? optional?)

/-- A configuration. -/
structure Config where
  /-- What is written to the log. -/
  logLevel : String := "info"
  /-- The intake queue. -/
  intake : IntakeSettings := {}
  /-- The listener for datagrams. -/
  udp : Option DatagramSettings := none
  /-- The listener for connections. -/
  tcp : Option StreamSettings := none
  /-- The upload endpoint. -/
  http : Option Upload.Settings := none
  /-- The subscription to a broker. -/
  mqtt : Option BrokerSettings := none
  /-- The store. -/
  store : StoreSettings := {}
  /-- The search for copies. -/
  dedup : DedupSettings := {}
  /-- The watch over staleness. -/
  staleness : StalenessSettings := {}
  /-- The delivery of readings. -/
  exporting : Option ExportSettings := none
  /-- The messages to the operators. -/
  alerts : AlertSettings := {}
  /-- This collector as one of several. -/
  server : ServerSettings := {}
deriving DecidableEq, Repr, Inhabited

/-- The value of a section that may be missing. -/
def sectionJson {α : Type} [Record α] (part : Option α) : Json :=
  part.elim .null .ofRecord

instance : Record Config where
  form := slots true ["log_level", "intake", "udp", "tcp", "http", "mqtt", "store", "dedup",
    "staleness", "export", "alerts", "server"]
  values x :=
    [some (.ofString x.logLevel), some (.ofRecord x.intake), some (sectionJson x.udp),
      some (sectionJson x.tcp), some (sectionJson x.http), some (sectionJson x.mqtt),
      some (.ofRecord x.store), some (.ofRecord x.dedup), some (.ofRecord x.staleness),
      some (sectionJson x.exporting), some (.ofRecord x.alerts), some (.ofRecord x.server)]
  ofValues?
    | [logLevel, intake, udp, tcp, http, mqtt, store, dedup, staleness, exporting, alerts,
      server] => do
      return ⟨← default? "info" Json.text? logLevel, ← default? {} Json.record? intake,
        ← optional? Json.record? udp, ← optional? Json.record? tcp, ← optional? Json.record? http,
        ← optional? Json.record? mqtt, ← default? {} Json.record? store,
        ← default? {} Json.record? dedup, ← default? {} Json.record? staleness,
        ← optional? Json.record? exporting, ← default? {} Json.record? alerts,
        ← default? {} Json.record? server⟩
    | _ => none

/-! ## Validation -/

/-- Why there is no configuration. -/
inductive ConfigError
  /-- The text is no configuration. -/
  | unreadable
  /-- The queue holds no request. -/
  | capacity
  /-- No write is tried. -/
  | attempts
  /-- The window of copies is not positive. -/
  | window
  /-- A threshold of staleness is not positive. -/
  | threshold
  /-- A scan or a heartbeat follows at once. -/
  | interval
  /-- The identifier of this collector names no snapshot. -/
  | instanceId (id : String)
  /-- Readings are delivered nowhere. -/
  | exportUrl
deriving DecidableEq, Repr

/-- The wording of an error. -/
def ConfigError.message : ConfigError → String
  | .unreadable => "invalid configuration"
  | .capacity => "invalid configuration: intake capacity must be at least 1"
  | .attempts => "invalid configuration: store.max_attempts must be at least 1"
  | .window => "invalid configuration: dedup.window_secs must be positive"
  | .threshold => "invalid configuration: staleness thresholds must be positive"
  | .interval => "invalid configuration: task intervals must be at least one second"
  | .instanceId id =>
    "invalid configuration: server.instance_id " ++ Text.quoted id
      ++ " is not usable as a snapshot id"
  | .exportUrl => "invalid configuration: export.url is required"

namespace Config

/-- Refuses a configuration that a collector cannot run with. -/
def validate (config : Config) : Except ConfigError Unit :=
  if config.intake.size = 0 then .error .capacity
  else if config.store.maxAttempts = 0 then .error .attempts
  else if config.dedup.window ≤ 0 then .error .window
  else if config.staleness.device ≤ 0 ∨ config.staleness.peer ≤ 0 then .error .threshold
  else if config.staleness.scanInterval = 0 ∨ config.server.heartbeat = 0 then .error .interval
  else if ¬ config.server.Usable then .error (.instanceId config.server.instanceId)
  else if config.exporting.any (·.url = "") then .error .exportUrl
  else .ok ()

/-- Whether anything can come into the collector. -/
def hasListeners (config : Config) : Bool :=
  config.udp.isSome || config.tcp.isSome || config.http.isSome || config.mqtt.isSome

/-! ## Texts -/

/-- The configuration of a JSON value, if it is a valid one. -/
def ofValue (value : Option Json) : Except ConfigError Config :=
  match value.bind Json.record? with
  | none => .error .unreadable
  | some (config : Config) => do
    config.validate
    return config

/-- The configuration of a text in JSON. -/
def ofJson (text : String) : Except ConfigError Config := ofValue (Json.parse? (Text.utf8 text))

/-- The numbers of slots of the sections. -/
def sectionSizes : List (String × Nat) :=
  [("intake", (Record.form IntakeSettings).length), ("udp", (Record.form DatagramSettings).length),
    ("tcp", (Record.form StreamSettings).length), ("http", (Record.form Upload.Settings).length),
    ("mqtt", (Record.form BrokerSettings).length), ("store", (Record.form StoreSettings).length),
    ("dedup", (Record.form DedupSettings).length),
    ("staleness", (Record.form StalenessSettings).length),
    ("export", (Record.form ExportSettings).length), ("alerts", (Record.form AlertSettings).length),
    ("server", (Record.form ServerSettings).length)]

/-- A mode in TOML, where an empty table or array stands under its name. -/
def tomlMode : Json → Json
  | .object [(name, .object [])] | .object [(name, .array [])] => .object [(name, .null)]
  | value => value

/-- A section in TOML. An array has a value for each slot and may have more. -/
def tomlSection (name : String) (value : Json) : Json :=
  let size := (sectionSizes.find? (·.1 = name)).elim 0 Prod.snd
  match value with
  | .array (first :: items) =>
    .array ((if name = "intake" then tomlMode first else first) :: items.take (size - 1))
  | .object members =>
    .object (members.map fun (key, value) =>
      (key, if name = "intake" ∧ key = some "mode" then tomlMode value else value))
  | value => value

/-- A document in TOML, as JSON would have it. -/
def tomlDocument : Json → Json
  | .object members => .object (members.map fun (key, value) =>
      (key, key.elim value fun name => tomlSection name value))
  | value => value

/-- The configuration of a text in TOML. -/
def ofToml (text : String) : Except ConfigError Config :=
  ofValue ((Toml.parse? text).map fun table => tomlDocument table.settings)

end Config

end FieldTelemetry.Collector
