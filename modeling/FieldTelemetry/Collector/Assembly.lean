import FieldTelemetry.Collector.Config
import FieldTelemetry.Collector.Supervisor
import FieldTelemetry.Delivery.Channel
import FieldTelemetry.Pipeline.Dispatch

/-!
# Assembly

A collector is put together from its configuration. The parts are checked in a fixed order, and the
first that does not work is reported.

## Main definitions

* `addressFault?`: why nobody can listen at an address
* `Assembly`: the parts of a collector
* `assemble`: the parts that a configuration describes
* `Assembly.processes`: the names of the processes of a collector
* `Assembly.shutdown`: what becomes of a collector that is asked to shut down at once
-/

namespace FieldTelemetry.Collector

open Delivery (Channel ExportTarget UrlError checkUrl)
open Intake (BrokerError port? splitAtLastColon?)
open Time (Span)

/-- Why nobody can listen at an address. -/
inductive AddressFault
  /-- It has no port. -/
  | noPort
  /-- Its port is no number of sixteen bits. -/
  | badPort
deriving DecidableEq, Repr

/-- The wording of a fault. -/
def AddressFault.message : AddressFault → String
  | .noPort => "invalid socket address"
  | .badPort => "invalid port value"

/-- The fault of an address, a host and a port, if it has one. -/
def addressFault? (address : String) : Option AddressFault :=
  match splitAtLastColon? address.toList with
  | none => some .noPort
  | some (_, port) => if (port? (String.ofList port)).isSome then none else some .badPort

/-- Why a collector cannot be put together. -/
inductive AssemblyError
  /-- It cannot run with the configuration. -/
  | config (error : ConfigError)
  /-- Posts cannot go to the webhook. -/
  | webhook (error : UrlError)
  /-- Posts cannot go to the server for readings. -/
  | exporting (error : UrlError)
  /-- Nobody can listen at an address. -/
  | listening (address : String) (fault : AddressFault)
  /-- The subscription cannot be made. -/
  | broker (error : BrokerError)
  /-- A window or a threshold is longer than any span of time. -/
  | spanOutOfRange
deriving DecidableEq, Repr

/-- The wording of an error. -/
def AssemblyError.message : AssemblyError → String
  | .config error => error.message
  | .webhook error => "alert webhook: " ++ error.message
  | .exporting error => "export sink: " ++ error.message
  | .listening address fault => "cannot bind " ++ address ++ ": " ++ fault.message
  | .broker error => error.message
  | .spanOutOfRange => "time span out of range"

/-- The parts of a collector. -/
structure Assembly where
  /-- The settings of the pipeline. -/
  pipeline : Pipeline.Settings
  /-- How long another collector may stay away. -/
  peerStale : Span
  /-- The capacity of the intake queue. -/
  capacity : Nat
  /-- The webhook, if there is one. -/
  webhook : Option String
  /-- Commands go to the webhook too. -/
  commands : Bool
  /-- Where readings go, and over which channel. -/
  exporting : Option (ExportTarget × Channel)
  /-- The listeners that have an address of their own. -/
  bound : List String
  /-- The listeners. -/
  listeners : List String
  /-- Seconds between two scans. -/
  scanInterval : Nat
  /-- Seconds between two heartbeats. -/
  heartbeatInterval : Nat
  /-- The identifier of this collector. -/
  instanceId : String

/-- A span that fits, or the error that it does not. -/
def fitting (span : Option Span) : Except AssemblyError Span :=
  span.elim (.error .spanOutOfRange) .ok

/-- The settings of the pipeline of a configuration. -/
def pipelineSettings (config : Config) : Except AssemblyError Pipeline.Settings := do
  let window ← fitting config.dedup.span?
  let deviceStale ← fitting config.staleness.deviceSpan?
  let gatewayStale ← fitting config.staleness.peerSpan?
  return { window, deviceStale, gatewayStale, attempts := config.store.maxAttempts.toNat }

/-- Where readings go, and the channel to there. -/
def exportOf (settings : ExportSettings) : Except AssemblyError (ExportTarget × Channel) := do
  (checkUrl settings.url).mapError .exporting
  let channel : Channel :=
    { name := settings.target.name, timeout := 1000 * settings.timeout.toNat }
  return (settings.target, channel.withAlertAfter settings.alertAfter.toNat)

/-- The listeners of a configuration that have an address of their own, with their addresses. -/
def boundListeners (config : Config) : List (String × String) :=
  (config.udp.map fun udp => ("udp", udp.bind)).toList
    ++ (config.tcp.map fun tcp => ("tcp", tcp.bind)).toList
    ++ (config.http.map fun http => ("http", http.bind)).toList

/-- The name of a listener that can listen at its address. -/
def bindListener : String × String → Except AssemblyError String
  | (name, address) =>
    match addressFault? address with
    | none => .ok name
    | some fault => .error (.listening address fault)

/-- The parts that a configuration describes. -/
def assemble (config : Config) : Except AssemblyError Assembly := do
  config.validate.mapError .config
  -- Of several faults the first one in this order is reported.
  if let some url := config.alerts.webhook then (checkUrl url).mapError .webhook
  let pipeline ← pipelineSettings config
  let exporting ← config.exporting.mapM exportOf
  -- The subscription is looked at last, behind the listeners that have an address.
  let bound ← (boundListeners config).mapM bindListener
  if let some broker := config.mqtt then discard (broker.check.mapError .broker)
  return {
    pipeline, exporting, bound
    peerStale := pipeline.gatewayStale
    capacity := config.intake.size
    webhook := config.alerts.webhook
    commands := config.alerts.webhook.isSome && config.alerts.commands
    listeners := bound ++ config.mqtt.toList.map fun _ => "mqtt"
    scanInterval := config.staleness.scanInterval.toNat
    heartbeatInterval := config.server.heartbeat.toNat
    instanceId := config.server.instanceId }

namespace Assembly

/-- The names of the processes of a collector. -/
def processes (assembly : Assembly) : List String :=
  assembly.listeners.map ("listener:" ++ ·)
    ++ ["pipeline", "breaker-watch", "device-scan", "gateway-scan", "server-scan", "heartbeat"]

/-- What becomes of a collector that is asked to shut down at once. All its processes end as they
should. -/
def shutdown (assembly : Assembly) : Supervisor :=
  let supervisor := Supervisor.new assembly.processes
  supervisor.run (.cancelled :: supervisor.running.map fun (number, _) => .ended number .success)

end Assembly

end FieldTelemetry.Collector
