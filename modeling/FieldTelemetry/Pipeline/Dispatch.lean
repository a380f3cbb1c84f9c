import FieldTelemetry.Delivery.Channel
import FieldTelemetry.Pipeline.Normalizer
import FieldTelemetry.Store.InOrder
import FieldTelemetry.Watch.Staleness

/-!
# From outcomes to work

Readings are stored with their devices and gateways and delivered to all sinks, and commands go to
the operators. This work is handed out in the order of the outcomes, and done later.

## Main definitions

* `Work`: a piece of work
* `Pipeline`: the normalizer with everything that work is done on
* `Pipeline.dispatch`: hands out the work of an outcome
* `Work.run?`, `Pipeline.settle`: does a piece of work, and all work
* `Pipeline.handle`: a request with all its outcomes
* `Pipeline.scan`: the search for the unseen
-/

namespace FieldTelemetry

open Delivery (Command Desk Outlet)
open Intake (Request)
open Stamp (StampStore)
open Store (Backend Call EntityKind GatewayStatus Lanes Listing Origin Queued)
open Time (Instant Span)
open Watch (Alert Tracker)

namespace Pipeline

/-- A piece of work. -/
inductive Work
  /-- A text for the operators. -/
  | alert (text : String)
  /-- A command for the operators. -/
  | command (command : Command)
  /-- An update of a device. -/
  | device (queued : Queued SensorRecord)
  /-- An update of a device as consumers of its values see it. -/
  | value (queued : Queued SensorRecord)
  /-- A reading for the sink with a number. -/
  | export (outlet : Nat) (record : SensorRecord)
  /-- An update of a gateway. -/
  | gateway (queued : Queued GatewayStatus)

/-- How a pipeline is set up. -/
structure Settings where
  /-- How long a message suppresses its copies. -/
  window : Span := Intake.dedupWindow
  /-- How long a device may stay away. -/
  deviceStale : Span := Span.ofMillis 5400000
  /-- How long a gateway may stay away. -/
  gatewayStale : Span := Span.ofMillis 600000
  /-- The number of attempts to store an update. -/
  attempts : Nat := 8

end Pipeline

open Pipeline (Normalizer.State Work)

/-- The normalizer with everything that work is done on. -/
structure Pipeline (σ τ : Type) where
  /-- The normalizer, the counts and the stamp files. -/
  state : Normalizer.State τ
  /-- The number of attempts to store an update. -/
  attempts : Nat
  /-- When devices were last heard. -/
  devices : Tracker
  /-- When gateways were last heard. -/
  gateways : Tracker
  /-- The lanes for updates of devices. -/
  deviceLanes : Lanes := {}
  /-- The lanes for updates of the values of devices. -/
  valueLanes : Lanes := {}
  /-- The lanes for updates of gateways. -/
  gatewayLanes : Lanes := {}
  /-- The sinks for readings. -/
  outlets : List Outlet
  /-- The operators. -/
  desk : Desk := {}
  /-- Where snapshots are kept. -/
  backend : σ
  /-- The work that is still to be done. -/
  pending : List Work := []

namespace Pipeline

variable {σ τ : Type}

/-- A pipeline without any work. -/
def new (settings : Settings) (outlets : List Outlet) (backend : σ) (files : τ) :
    Pipeline σ τ where
  state := { normalizer := .new settings.window, files }
  attempts := settings.attempts
  devices := .new "device" settings.deviceStale
  gateways := .new "gateway" settings.gatewayStale
  outlets := outlets
  backend := backend

/-- The counts of a pipeline. -/
def tally (p : Pipeline σ τ) : Tally := p.state.tally

/-- The pipeline that has counted one more of a thing. -/
def bump (p : Pipeline σ τ) (counter : Counter) : Pipeline σ τ :=
  { p with state := { p.state with tally := p.state.tally.bump counter } }

/-! ## Handing out work -/

/-- The pipeline with more work to be done. -/
def add (p : Pipeline σ τ) (work : List Work) : Pipeline σ τ :=
  { p with pending := p.pending ++ work }

/-- Hands out texts for the operators. -/
def notify (p : Pipeline σ τ) (alerts : List Alert) : Pipeline σ τ :=
  p.add (alerts.map fun alert => .alert alert.text)

/-- A device was heard. -/
def seeDevice (p : Pipeline σ τ) (id : String) (seen now : Instant) : Pipeline σ τ :=
  let (alert, devices) := p.devices.observe id seen now
  notify { p with devices } alert.toList

/-- A gateway was heard. -/
def seeGateway (p : Pipeline σ τ) (id : String) (seen now : Instant) : Pipeline σ τ :=
  let (alert, gateways) := p.gateways.observe id seen now
  notify { p with gateways } alert.toList

/-- Where the readings of a request come from. -/
def originOf (request : Request) : Origin :=
  { Origin.ofTransport request.transport with
    location := request.hints.location
    lat := request.hints.lat
    lon := request.hints.lon }

/-- What a request tells about its gateway. -/
def statusOf (request : Request) : GatewayStatus where
  lat := request.hints.lat
  lon := request.hints.lon
  alt := request.hints.alt
  location := request.hints.location
  snr := request.hints.snr
  lastTransport := some request.transport
  lastSeen := some request.receivedAt

/-- Hands out an update of a device. -/
def updateDevice (p : Pipeline σ τ) (id : String) (record : SensorRecord) (origin : Origin) :
    Pipeline σ τ :=
  let call : Call SensorRecord := ⟨EntityKind.device, id, record, some origin, p.attempts⟩
  let (queued, deviceLanes) := call.queue p.deviceLanes
  add { p with deviceLanes } [.device queued]

/-- Hands out an update of the values of a device. -/
def updateValue (p : Pipeline σ τ) (id : String) (record : SensorRecord) (origin : Origin) :
    Pipeline σ τ :=
  let call : Call SensorRecord := ⟨EntityKind.value, id, record, some origin, p.attempts⟩
  let (queued, valueLanes) := call.queue p.valueLanes
  add { p with valueLanes } [.value queued]

/-- Hands out an update of a gateway. -/
def updateGateway (p : Pipeline σ τ) (id : String) (status : GatewayStatus) (origin : Origin) :
    Pipeline σ τ :=
  let call : Call GatewayStatus := ⟨EntityKind.gateway, id, status, some origin, p.attempts⟩
  let (queued, gatewayLanes) := call.queue p.gatewayLanes
  add { p with gatewayLanes } [.gateway queued]

/-- Hands out the deliveries of a reading to all sinks. -/
def exportAll (p : Pipeline σ τ) (record : SensorRecord) : Pipeline σ τ :=
  p.add ((List.range p.outlets.length).map fun outlet => .export outlet record)

/-- Hands out the work of a reading. -/
def accept (p : Pipeline σ τ) (request : Request) (record : SensorRecord) (now : Instant) :
    Pipeline σ τ :=
  match record.entityId? with
  | none => p
  | some device =>
    let origin := originOf request
    -- The operators hear that a device is back before its snapshot changes.
    let p := p.seeDevice device request.receivedAt now
    let p := p.updateDevice device record origin
    let p := p.updateValue device record origin
    let p := p.exportAll record
    -- A gateway that has no id is not tracked, though its place stays with the reading.
    match request.hints.id with
    | none => p
    | some gateway =>
      let p := p.seeGateway gateway request.receivedAt now
      p.updateGateway gateway (statusOf request) (.ofTransport request.transport)

/-- Hands out the work of an outcome. Copies and what was dropped give no work. -/
def dispatch (p : Pipeline σ τ) (request : Request) (outcome : Outcome) (now : Instant) :
    Pipeline σ τ :=
  match outcome with
  | .accepted record => p.accept request record now
  | .command command => p.add [.command command]
  | .duplicate _ | .rejected _ _ => p

/-- The outcomes of a request. Their work is handed out. -/
def handle [StampStore τ] (p : Pipeline σ τ) (request : Request) (now : Instant) :
    Except Breakdown (List Outcome × Pipeline σ τ) := do
  let (outcomes, state) ← Normalizer.process request now p.state
  return (outcomes, outcomes.foldl (fun p outcome => p.dispatch request outcome now)
    { p with state })

/-- Searches for devices that have not been heard. The operators are to be told of them. -/
def sweepDevices (p : Pipeline σ τ) (now : Instant) : List Alert × Pipeline σ τ :=
  let (alerts, devices) := p.devices.sweep now
  (alerts, notify { p with devices } alerts)

/-- Searches for gateways that have not been heard. The operators are to be told of them. -/
def sweepGateways (p : Pipeline σ τ) (now : Instant) : List Alert × Pipeline σ τ :=
  let (alerts, gateways) := p.gateways.sweep now
  (alerts, notify { p with gateways } alerts)

/-! ## Doing work -/

variable [Backend σ]

/-- Counts an update that was not stored. -/
def countStored {α : Type} (p : Pipeline σ τ) (result : Except Store.StoreError α) :
    Pipeline σ τ :=
  match result with
  | .ok _ => p
  | .error _ => p.bump .storeFailures

/-- Delivers a reading to the sink with a number. -/
def deliver (p : Pipeline σ τ) (number : Nat) (record : SensorRecord) : Pipeline σ τ :=
  match p.outlets[number]? with
  | none => p
  | some outlet =>
    let (result, outlet, desk) := outlet.send p.desk record
    let p := { p with desk, outlets := p.outlets.set number outlet }
    match result with
    | .ok _ => p
    | .error _ => p.bump .exportFailures

/-- Does a piece of work, unless it has to wait for its turn. -/
def Work.run? (p : Pipeline σ τ) (now : Instant) : Work → Option (Pipeline σ τ)
  | .alert text => some { p with desk := p.desk.alert text }
  | .command c => some { p with desk := p.desk.deliver c }
  | .export outlet record => some (p.deliver outlet record)
  | .device queued => do
    let (result, deviceLanes, backend) ← queued.run? p.deviceLanes now p.backend
    return countStored { p with deviceLanes, backend } result
  | .value queued => do
    let (result, valueLanes, backend) ← queued.run? p.valueLanes now p.backend
    return countStored { p with valueLanes, backend } result
  | .gateway queued => do
    let (result, gatewayLanes, backend) ← queued.run? p.gatewayLanes now p.backend
    return countStored { p with gatewayLanes, backend } result

/-- Does pieces of work one after the other. Work that has to wait for its turn stays pending. -/
def doAll (now : Instant) : List Work → Pipeline σ τ → Pipeline σ τ
  | [], p => p
  | work :: rest, p => doAll now rest ((work.run? p now).getD (p.add [work]))

/-- Does all work. -/
def settle (p : Pipeline σ τ) (now : Instant) : Pipeline σ τ :=
  doAll now p.pending { p with pending := [] }

/-! ## The search for the unseen -/

/-- The sightings of a listing, where the time of the latest update counts as the latest
sighting. -/
def sightings (listings : List Listing) : List (String × Instant) :=
  listings.map fun listing => (listing.id, listing.modified)

/-- Takes the stored snapshots of a kind as sightings and searches for the unseen. When the
snapshots cannot be listed, the search goes on without them. -/
def scanOnce {α σ : Type} [Store.Mergeable α] [Backend σ] (kind : EntityKind α) (tracker : Tracker)
    (now : Instant) (backend : σ) : List Alert × Tracker × σ :=
  let (listed, backend) := Store.scan kind backend
  -- A backend that cannot be listed must not keep the absent from being reported.
  let seen := match listed with
    | .ok listings => sightings listings
    | .error _ => []
  let (returned, tracker) := tracker.refresh seen now
  let (unseen, tracker) := tracker.sweep now
  (returned ++ unseen, tracker, backend)

end Pipeline

end FieldTelemetry
