import FieldTelemetry.Collector.Assembly
import FieldTelemetry.Proofs.Except
import Mathlib.Algebra.Order.Ring.Int

/-!
# Validated configurations

Validation asks that the window of copies and the thresholds of staleness are positive, and no more.
The collector is put together with spans of time, and these end much earlier than the numbers that
may be configured, minutes sixty times as early as seconds. Up to the limits a span is exact, and
beyond them a collector with a valid configuration cannot be put together.

## Main definitions

* `Config.Positive`, `Config.Valid`: what validation asks of a configuration
* `Span.minuteLimit`: the largest number of minutes that is a span
* `Config.InRange`: the window and the thresholds are spans
* `Convertible`: what becomes of the window and the thresholds of a configuration

## Main results

* `Config.validate_eq_ok_iff`: validation accepts exactly the valid configurations
* `Span.ofSeconds?_eq_some_iff`, `Span.ofMinutes?_eq_some_iff`: spans are exact up to the limits
* `assemble_eq_ok`: a collector that has been put together is the configured one
* `convertible_of_validate`: valid configurations are converted exactly, up to the limits
-/

namespace FieldTelemetry

open Time (Span)

/-! ## Spans of large units -/

namespace Time.Span

/-- Minutes beyond this number do not fit in sixty-four bits of milliseconds. -/
def minuteLimit : Int := secondLimit / 60

theorem secondLimit_eq : secondLimit = 9223372036854775 := rfl

theorem minuteLimit_eq : minuteLimit = 153722867280912 := rfl

/-- A number of seconds is a span up to the limit, and then an exact one. -/
theorem ofSeconds?_eq_some_iff {seconds span : Int} :
    ofSeconds? seconds = some span
      ↔ (seconds.natAbs : Int) ≤ secondLimit ∧ span = 1000000000 * seconds := by
  have hnanos : ofMillis (1000 * seconds) = 1000000000 * seconds := by
    change (1000 * seconds * 1000000 : Int) = 1000000000 * seconds
    omega
  rw [ofSeconds?]
  split
  · rename_i hfits
    rw [Option.some_inj, hnanos]
    exact ⟨fun h => ⟨hfits, h.symm⟩, fun h => h.2.symm⟩
  · rename_i hlarge
    exact ⟨nofun, fun h => absurd h.1 hlarge⟩

/-- A number of minutes is a span up to the limit, and then an exact one. -/
theorem ofMinutes?_eq_some_iff {minutes span : Int} :
    ofMinutes? minutes = some span
      ↔ (minutes.natAbs : Int) ≤ minuteLimit ∧ span = 60000000000 * minutes := by
  rw [ofMinutes?, ofSeconds?_eq_some_iff, secondLimit_eq, minuteLimit_eq]
  omega

theorem ofSeconds?_eq_some_iff_of_pos {seconds span : Int} (h : 0 < seconds) :
    ofSeconds? seconds = some span ↔ seconds ≤ secondLimit ∧ span = 1000000000 * seconds := by
  rw [ofSeconds?_eq_some_iff, Int.natAbs_of_nonneg h.le]

theorem ofMinutes?_eq_some_iff_of_pos {minutes span : Int} (h : 0 < minutes) :
    ofMinutes? minutes = some span ↔ minutes ≤ minuteLimit ∧ span = 60000000000 * minutes := by
  rw [ofMinutes?_eq_some_iff, Int.natAbs_of_nonneg h.le]

end Time.Span

namespace Collector

open Delivery (checkUrl)

/-! ## Validation -/

namespace Config

/-- What validation asks of the numbers of a configuration. -/
structure Positive (config : Config) : Prop where
  /-- The queue holds a request. -/
  capacity : config.intake.size ≠ 0
  /-- A write is tried. -/
  attempts : config.store.maxAttempts ≠ 0
  /-- The window of copies is positive. -/
  window : 0 < config.dedup.window
  /-- The threshold of devices is positive. -/
  device : 0 < config.staleness.device
  /-- The threshold of gateways and other collectors is positive. -/
  peer : 0 < config.staleness.peer
  /-- Scans do not follow at once. -/
  scanInterval : config.staleness.scanInterval ≠ 0
  /-- Heartbeats do not follow at once. -/
  heartbeat : config.server.heartbeat ≠ 0

/-- What validation asks of a configuration. -/
structure Valid (config : Config) : Prop extends Positive config where
  /-- The identifier names a snapshot. -/
  instanceId : config.server.Usable
  /-- Readings are delivered somewhere. -/
  exportUrl : config.exporting.any (·.url = "") = false

/-- Behind the numbers the identifier and the server for readings are looked at. -/
theorem Positive.validate_eq {config : Config} (h : config.Positive) : config.validate
    = if ¬ config.server.Usable then .error (.instanceId config.server.instanceId)
      else if config.exporting.any (·.url = "") then .error .exportUrl
      else .ok () := by
  rw [validate, if_neg h.capacity, if_neg h.attempts, if_neg (Int64.not_le.mpr h.window),
    if_neg (not_or.mpr ⟨Int64.not_le.mpr h.device, Int64.not_le.mpr h.peer⟩),
    if_neg (not_or.mpr ⟨h.scanInterval, h.heartbeat⟩)]

theorem validate_eq_ok_iff (config : Config) : config.validate = .ok () ↔ config.Valid := by
  constructor
  · intro h
    simp only [validate] at h
    split_ifs at h with hcapacity hattempts hwindow hthreshold hinterval husable hurl
    obtain ⟨hdevice, hpeer⟩ := not_or.mp hthreshold
    obtain ⟨hscan, hheartbeat⟩ := not_or.mp hinterval
    have hpositive : config.Positive := ⟨hcapacity, hattempts, Int64.not_le.mp hwindow,
      Int64.not_le.mp hdevice, Int64.not_le.mp hpeer, hscan, hheartbeat⟩
    exact ⟨hpositive, by simpa using husable, by simpa using hurl⟩
  · intro h
    rw [h.validate_eq, if_neg (not_not.mpr h.instanceId), if_neg (by simp [h.exportUrl])]

/-- The window and the thresholds are spans. -/
structure InRange (config : Config) : Prop where
  /-- The window of copies, in seconds. -/
  window : config.dedup.window.toInt ≤ Span.secondLimit
  /-- The threshold of devices, in minutes. -/
  device : config.staleness.device.toInt ≤ Span.minuteLimit
  /-- The threshold of gateways and other collectors, in minutes. -/
  peer : config.staleness.peer.toInt ≤ Span.minuteLimit

/-- The settings of a pipeline with the window and the thresholds in nanoseconds. -/
def exactSettings (config : Config) : Pipeline.Settings where
  window := 1000000000 * config.dedup.window.toInt
  deviceStale := 60000000000 * config.staleness.device.toInt
  gatewayStale := 60000000000 * config.staleness.peer.toInt
  attempts := config.store.maxAttempts.toNat

variable {config : Config}

namespace Valid

theorem window_span (h : config.Valid) {span : Span} : config.dedup.span? = some span
    ↔ config.dedup.window.toInt ≤ Span.secondLimit
      ∧ span = 1000000000 * config.dedup.window.toInt :=
  Span.ofSeconds?_eq_some_iff_of_pos (Int64.lt_iff_toInt_lt.mp h.window)

theorem device_span (h : config.Valid) {span : Span} : config.staleness.deviceSpan? = some span
    ↔ config.staleness.device.toInt ≤ Span.minuteLimit
      ∧ span = 60000000000 * config.staleness.device.toInt :=
  Span.ofMinutes?_eq_some_iff_of_pos (Int64.lt_iff_toInt_lt.mp h.device)

theorem peer_span (h : config.Valid) {span : Span} : config.staleness.peerSpan? = some span
    ↔ config.staleness.peer.toInt ≤ Span.minuteLimit
      ∧ span = 60000000000 * config.staleness.peer.toInt :=
  Span.ofMinutes?_eq_some_iff_of_pos (Int64.lt_iff_toInt_lt.mp h.peer)

end Valid

end Config

/-! ## Assembly -/

theorem fitting_eq_ok_iff {span? : Option Span} {span : Span} :
    fitting span? = .ok span ↔ span? = some span := by
  cases span? <;> simp [fitting]

theorem fitting_eq_error {span? : Option Span} {error : AssemblyError}
    (h : fitting span? = .error error) : error = .spanOutOfRange := by
  cases span? <;> simp_all [fitting, eq_comm]

section Errors

variable {ε α β : Type} {error : ε}

/-- Steps do not end with an error that none of them ends with. -/
theorem bind_ne_error {x : Except ε α} {next : α → Except ε β} (hx : x ≠ .error error)
    (hnext : ∀ a, next a ≠ .error error) : (x >>= next) ≠ .error error := by
  cases x with
  | error error' => exact fun h => hx (by cases h; rfl)
  | ok a => exact hnext a

theorem mapM_ne_error {step : α → Except ε β} (hstep : ∀ a, step a ≠ .error error)
    (items : List α) : items.mapM step ≠ .error error := by
  induction items with
  | nil => exact nofun
  | cons first rest ih =>
    rw [List.mapM_cons]
    exact bind_ne_error (hstep first) fun _ => bind_ne_error ih fun _ => nofun

theorem option_mapM_ne_error {step : α → Except ε β} (hstep : ∀ a, step a ≠ .error error)
    (item : Option α) : item.mapM step ≠ .error error := by
  cases item with
  | none => exact nofun
  | some a => exact bind_ne_error (hstep a) fun _ => nofun

end Errors

theorem exportOf_ne_spanOutOfRange (settings : ExportSettings) :
    exportOf settings ≠ .error .spanOutOfRange := by
  rw [exportOf]
  refine bind_ne_error ?_ fun _ => nofun
  cases checkUrl settings.url <;> exact nofun

theorem bindListener_ne_spanOutOfRange (listener : String × String) :
    bindListener listener ≠ .error .spanOutOfRange := by
  obtain ⟨name, address⟩ := listener
  rw [bindListener]
  split <;> exact nofun

variable {config : Config}

/-- The parts of a collector behind its spans. -/
def finish (config : Config) (pipeline : Pipeline.Settings) : Except AssemblyError Assembly := do
  let exporting ← config.exporting.mapM exportOf
  let bound ← (boundListeners config).mapM bindListener
  if let some broker := config.mqtt then discard (broker.check.mapError .broker)
  return {
    pipeline, exporting, bound
    peerStale := pipeline.gatewayStale
    capacity := config.intake.size
    webhook := config.alerts.webhook
    commands := config.alerts.webhook.isSome && config.alerts.commands
    listeners := bound ++ config.mqtt.toList.map fun _ => "mqtt"
    scanInterval := config.staleness.scanInterval.toNat
    heartbeatInterval := config.server.heartbeat.toNat
    instanceId := config.server.instanceId }

/-- What is checked before the spans. -/
def admission (config : Config) : Except AssemblyError Unit := do
  config.validate.mapError .config
  if let some url := config.alerts.webhook then (checkUrl url).mapError .webhook

theorem assemble_eq (config : Config) :
    assemble config = admission config >>= fun _ => pipelineSettings config >>= finish config := by
  rw [assemble, admission]
  cases config.validate with
  | error error => rfl
  | ok _ =>
    unfold finish
    cases config.alerts.webhook with
    | none => rfl
    | some url => cases checkUrl url <;> rfl

/-- Everything behind the spans may fail, but not for a span. -/
theorem finish_ne_spanOutOfRange (config : Config) (pipeline : Pipeline.Settings) :
    finish config pipeline ≠ .error .spanOutOfRange := by
  refine bind_ne_error (option_mapM_ne_error exportOf_ne_spanOutOfRange _) fun _ => ?_
  refine bind_ne_error (mapM_ne_error bindListener_ne_spanOutOfRange _) fun _ => ?_
  cases config.mqtt with
  | none => exact nofun
  | some broker =>
    refine bind_ne_error ?_ fun _ => nofun
    cases broker.check <;> exact nofun

theorem finish_eq_ok {pipeline : Pipeline.Settings} {assembly : Assembly}
    (h : finish config pipeline = .ok assembly) : assembly.pipeline = pipeline
      ∧ assembly.peerStale = pipeline.gatewayStale
      ∧ assembly.instanceId = config.server.instanceId := by
  obtain ⟨exporting, -, h⟩ := bind_eq_ok.mp h
  obtain ⟨bound, -, h⟩ := bind_eq_ok.mp h
  cases hmqtt : config.mqtt with
  | none =>
    rw [hmqtt] at h
    cases h
    exact ⟨rfl, rfl, rfl⟩
  | some broker =>
    rw [hmqtt] at h
    obtain ⟨_, _, h⟩ := bind_eq_ok.mp h
    cases h
    exact ⟨rfl, rfl, rfl⟩

/-- Posts can go to the webhook, if there is one. -/
def Config.Reachable (config : Config) : Prop :=
  ∀ url ∈ config.alerts.webhook, checkUrl url = .ok ()

theorem admission_eq_ok_iff (config : Config) :
    admission config = .ok () ↔ config.Valid ∧ config.Reachable := by
  rw [← Config.validate_eq_ok_iff, admission, Config.Reachable]
  cases config.validate with
  | error error => exact ⟨nofun, fun h => nomatch h.1⟩
  | ok _ =>
    cases config.alerts.webhook with
    | none => exact ⟨fun _ => ⟨rfl, nofun⟩, fun _ => rfl⟩
    | some url =>
      change (checkUrl url).mapError AssemblyError.webhook = .ok () ↔ _
      cases hurl : checkUrl url with
      | error error => exact ⟨nofun, fun h => nomatch hurl.symm.trans (h.2 url rfl)⟩
      | ok _ => exact ⟨fun _ => ⟨rfl, by rintro _ ⟨⟩; exact hurl⟩, fun _ => rfl⟩

/-- A collector that has been put together is the configured one. -/
theorem assemble_eq_ok {assembly : Assembly} (h : assemble config = .ok assembly) :
    config.Valid ∧ pipelineSettings config = .ok assembly.pipeline
      ∧ assembly.peerStale = assembly.pipeline.gatewayStale
      ∧ assembly.instanceId = config.server.instanceId := by
  rw [assemble_eq] at h
  obtain ⟨⟨⟩, hadmit, h⟩ := bind_eq_ok.mp h
  obtain ⟨settings, hsettings, h⟩ := bind_eq_ok.mp h
  obtain ⟨rfl, hstale, hid⟩ := finish_eq_ok h
  exact ⟨((admission_eq_ok_iff config).mp hadmit).1, hsettings, hstale, hid⟩

/-! ## Conversion -/

theorem pipelineSettings_eq_ok_iff (h : config.Valid) {settings : Pipeline.Settings} :
    pipelineSettings config = .ok settings
      ↔ config.InRange ∧ settings = config.exactSettings := by
  simp only [pipelineSettings, bind_eq_ok, fitting_eq_ok_iff, h.window_span, h.device_span,
    h.peer_span]
  constructor
  · rintro ⟨window, ⟨hwindow, rfl⟩, device, ⟨hdevice, rfl⟩, peer, ⟨hpeer, rfl⟩, hsettings⟩
    cases hsettings
    exact ⟨⟨hwindow, hdevice, hpeer⟩, rfl⟩
  · rintro ⟨hrange, rfl⟩
    exact ⟨_, ⟨hrange.window, rfl⟩, _, ⟨hrange.device, rfl⟩, _, ⟨hrange.peer, rfl⟩, rfl⟩

/-- A collector that has been put together tries every write. -/
theorem attempts_pos {assembly : Assembly} (h : assemble config = .ok assembly) :
    0 < assembly.pipeline.attempts := by
  obtain ⟨hvalid, hsettings, -, -⟩ := assemble_eq_ok h
  obtain ⟨-, hexact⟩ := (pipelineSettings_eq_ok_iff hvalid).mp hsettings
  rw [hexact, Config.exactSettings, Nat.pos_iff_ne_zero]
  exact fun hzero => hvalid.attempts (UInt32.toNat_inj.mp hzero)

/-- Only for a span the settings of the pipeline fail. -/
theorem pipelineSettings_ne_error {error : AssemblyError} (h : error ≠ .spanOutOfRange) :
    pipelineSettings config ≠ .error error := by
  have hfitting : ∀ span?, fitting span? ≠ .error error :=
    fun span? herror => h (fitting_eq_error herror)
  exact bind_ne_error (hfitting _) fun _ => bind_ne_error (hfitting _) fun _ =>
    bind_ne_error (hfitting _) fun _ => nofun

theorem pipelineSettings_eq_error_iff (h : config.Valid) {error : AssemblyError} :
    pipelineSettings config = .error error ↔ ¬ config.InRange ∧ error = .spanOutOfRange := by
  constructor
  · intro herror
    refine ⟨fun hrange => ?_, by_contra fun hother => pipelineSettings_ne_error hother herror⟩
    rw [(pipelineSettings_eq_ok_iff h).mpr ⟨hrange, rfl⟩] at herror
    cases herror
  · rintro ⟨hrange, rfl⟩
    cases hsettings : pipelineSettings config with
    | ok settings => exact absurd ((pipelineSettings_eq_ok_iff h).mp hsettings).1 hrange
    | error error =>
      by_contra hother
      exact pipelineSettings_ne_error (fun herror => hother (by rw [herror])) hsettings

/-- What becomes of the window and the thresholds of a configuration. -/
structure Convertible (config : Config) : Prop where
  /-- The window is a span up to the limit of seconds, and then an exact one. -/
  window : ∀ span, config.dedup.span? = some span
    ↔ config.dedup.window.toInt ≤ Span.secondLimit
      ∧ span = 1000000000 * config.dedup.window.toInt
  /-- The threshold of devices is a span up to the limit of minutes, and then an exact one. -/
  device : ∀ span, config.staleness.deviceSpan? = some span
    ↔ config.staleness.device.toInt ≤ Span.minuteLimit
      ∧ span = 60000000000 * config.staleness.device.toInt
  /-- So is the threshold of gateways and other collectors. -/
  peer : ∀ span, config.staleness.peerSpan? = some span
    ↔ config.staleness.peer.toInt ≤ Span.minuteLimit
      ∧ span = 60000000000 * config.staleness.peer.toInt
  /-- The pipeline has exact settings when all three are spans. -/
  settings : config.InRange → pipelineSettings config = .ok config.exactSettings
  /-- A collector that has been put together has them, and watches other collectors with them. -/
  assembled : ∀ assembly, assemble config = .ok assembly → config.InRange
    ∧ assembly.pipeline = config.exactSettings
    ∧ assembly.peerStale = 60000000000 * config.staleness.peer.toInt
  /-- No collector can be put together when one of them is no span, unless posts cannot go to the
  webhook, which is found out before. -/
  outOfRange : config.Reachable → (assemble config = .error .spanOutOfRange ↔ ¬ config.InRange)
  /-- Validation takes all positive values in the place of the three. -/
  lax : ∀ window device peer : Int64, 0 < window → 0 < device → 0 < peer →
    { config with
      dedup := { window }
      staleness := { config.staleness with device, peer } }.validate = .ok ()

/-- Valid configurations are converted exactly, up to the limits of spans. -/
theorem convertible_of_validate (hvalidate : config.validate = .ok ()) : Convertible config := by
  have h := (Config.validate_eq_ok_iff config).mp hvalidate
  constructor
  case window => exact fun span => h.window_span
  case device => exact fun span => h.device_span
  case peer => exact fun span => h.peer_span
  case settings => exact fun hrange => (pipelineSettings_eq_ok_iff h).mpr ⟨hrange, rfl⟩
  case assembled =>
    intro assembly hassembly
    obtain ⟨-, hsettings, hstale, -⟩ := assemble_eq_ok hassembly
    obtain ⟨hrange, hexact⟩ := (pipelineSettings_eq_ok_iff h).mp hsettings
    rw [hstale, hexact]
    exact ⟨hrange, rfl, rfl⟩
  case outOfRange =>
    intro hreachable
    rw [assemble_eq, (admission_eq_ok_iff config).mpr ⟨h, hreachable⟩, ok_bind]
    constructor
    · intro herror hrange
      rw [(pipelineSettings_eq_ok_iff h).mpr ⟨hrange, rfl⟩, ok_bind] at herror
      exact finish_ne_spanOutOfRange config _ herror
    · intro hrange
      rw [(pipelineSettings_eq_error_iff h).mpr ⟨hrange, rfl⟩]
      rfl
  case lax =>
    intro window device peer hwindow hdevice hpeer
    exact (Config.validate_eq_ok_iff _).mpr { h with
      window := hwindow, device := hdevice, peer := hpeer }

/-! ## A threshold that is no span -/

/-- A configuration with a threshold of devices, and standard values otherwise. -/
def withThreshold (device : Int64) : Config := { staleness := { device } }

/-- With the largest threshold that is a span, a collector can be put together. -/
theorem convertible_minuteLimit :
    (withThreshold 153722867280912).validate = .ok ()
      ∧ Convertible (withThreshold 153722867280912)
      ∧ (withThreshold 153722867280912).staleness.deviceSpan?
        = some (60000000000 * 153722867280912) := by
  have hvalidate : (withThreshold 153722867280912).validate = .ok () := by decide +kernel
  have hconvertible : Convertible (withThreshold 153722867280912) :=
    convertible_of_validate hvalidate
  refine ⟨hvalidate, hconvertible, ?_⟩
  exact (hconvertible.device _).mpr ⟨by decide +kernel, by decide +kernel⟩

/-- The next minute is valid, and no collector can be put together with it. -/
theorem assemble_of_next_minute :
    (withThreshold 153722867280913).validate = .ok ()
      ∧ (withThreshold 153722867280913).staleness.deviceSpan? = none
      ∧ assemble (withThreshold 153722867280913) = .error .spanOutOfRange := by
  have hvalidate : (withThreshold 153722867280913).validate = .ok () := by decide +kernel
  have hvalid := (Config.validate_eq_ok_iff _).mp hvalidate
  have hrange : ¬ (withThreshold 153722867280913).InRange :=
    fun hrange => absurd hrange.device (by decide +kernel)
  refine ⟨hvalidate, by decide +kernel, ?_⟩
  rw [assemble_eq, (admission_eq_ok_iff _).mpr ⟨hvalid, nofun⟩,
    (pipelineSettings_eq_error_iff hvalid).mpr ⟨hrange, rfl⟩]
  rfl

end Collector

end FieldTelemetry
