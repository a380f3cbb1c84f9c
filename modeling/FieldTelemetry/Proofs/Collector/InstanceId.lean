import FieldTelemetry.Pipeline.Heartbeat
import FieldTelemetry.Proofs.Collector.Validation
import FieldTelemetry.Proofs.Store.Listed

/-!
# The identifier of a collector

A collector says that it is alive by updates of a snapshot under its own identifier. Validation asks
less of the identifier than the store asks of ids: it takes two full stops in a row and the NUL
character. With such an identifier a collector can be put together, and every one of its heartbeats
is refused before the store is asked. With any other valid identifier no heartbeat is, and one that
does not fail is seen by the others.

## Main definitions

* `Config.named`: a configuration with another identifier
* `Assembly.heartbeat`: what a collector says that it is alive with
* `Named`: what becomes of an identifier

## Main results

* `valid_iff_usable`: what the store asks of an identifier more than validation
* `Heartbeat.beat_eq_invalidId_iff`: heartbeats are refused for the id, and for nothing else
* `Heartbeat.listed_of_beat_eq_ok`: a collector whose heartbeat does not fail is listed
* `named_of_validate`: every identifier in a valid configuration
-/

namespace FieldTelemetry

open Time (Instant)

/-! ## Heartbeats -/

namespace Pipeline

open Intake (Queue)
open Store (Backend EntityId.Valid EntityKind Folders ServerStatus fileName)

theorem valid_server : EntityId.Valid EntityKind.server.name := by decide

namespace Heartbeat

variable {σ : Type} [Backend σ] (heartbeat : Heartbeat) (tally : Tally) (queue : Queue)
  (attempts : Nat) (now : Instant)

/-- The update of the collector's own snapshot. -/
def call : Store.Call ServerStatus where
  kind := EntityKind.server
  id := heartbeat.instanceId
  update := heartbeat.status tally queue now
  attempts := attempts

theorem beat_eq (backend : σ) : heartbeat.beat tally queue attempts now backend
    = (((heartbeat.call tally queue attempts now).run now backend).1.map fun _ => (),
      ((heartbeat.call tally queue attempts now).run now backend).2) := rfl

/-- A heartbeat is refused when its collector has no id, and for nothing that a backend answers. -/
theorem beat_eq_invalidId_iff (backend : σ) (id : String) :
    (heartbeat.beat tally queue attempts now backend).1 = .error (.invalidId id)
      ↔ ¬ EntityId.Valid heartbeat.instanceId ∧ id = heartbeat.instanceId := by
  have hrefused :=
    (heartbeat.call tally queue attempts now).run_eq_invalidId_iff now backend id
  rw [beat_eq]
  refine Iff.trans ?_ hrefused
  cases ((heartbeat.call tally queue attempts now).run now backend).1 <;> simp [Except.map]

theorem beat_of_not_valid (h : ¬ EntityId.Valid heartbeat.instanceId) (backend : σ) :
    heartbeat.beat tally queue attempts now backend
      = (.error (.invalidId heartbeat.instanceId), backend) := by
  rw [beat_eq, (heartbeat.call tally queue attempts now).run_of_not_valid now h]
  rfl

variable {folders : Folders}

/-- A collector whose heartbeat does not fail is listed. -/
theorem listed_of_beat_eq_ok
    (hok : (heartbeat.beat tally queue attempts now folders).1 = .ok ()) :
    (heartbeat.beat tally queue attempts now folders).2.Listed EntityKind.server.name
      heartbeat.instanceId now := by
  rw [beat_eq] at hok ⊢
  cases hrun : ((heartbeat.call tally queue attempts now).run now folders).1 with
  | error error =>
    rw [hrun] at hok
    cases hok
  | ok s => exact Folders.listed_of_run_eq_ok _ now valid_server hrun

/-- A heartbeat does not fail when the collector has an id and there is room for its file. -/
theorem beat_eq_ok (hid : EntityId.Valid heartbeat.instanceId) (hattempts : 0 < attempts)
    (hroomy : (folders.folder EntityKind.server.name).Roomy (fileName heartbeat.instanceId)) :
    (heartbeat.beat tally queue attempts now folders).1 = .ok () := by
  have hreliable : (Folders.roomy (heartbeat.call tally queue attempts now).kind.name
      (heartbeat.call tally queue attempts now).id).Reliable :=
    Folders.reliable_roomy valid_server hid
  obtain ⟨hrun, -⟩ := Store.Call.run_of_reliable hreliable hid hattempts hroomy now
  rw [beat_eq, hrun]
  rfl

end Heartbeat

end Pipeline

/-! ## Identifiers -/

namespace Collector

open Intake (Queue)
open Pipeline (Heartbeat Tally)
open Store (Backend EntityId.Valid EntityId.hasTwoStops EntityKind Folders fileName)

/-- A configuration with another identifier. -/
def Config.named (config : Config) (id : String) : Config :=
  { config with server := { config.server with instanceId := id } }

/-- What a collector says that it is alive with. -/
def Assembly.heartbeat (assembly : Assembly) (startedAt : Instant) : Heartbeat :=
  ⟨assembly.instanceId, startedAt⟩

/-- The store asks more of an identifier than validation: no two full stops in a row, and no NUL
character. -/
theorem valid_iff_usable (settings : ServerSettings) : EntityId.Valid settings.instanceId
    ↔ settings.Usable ∧ EntityId.hasTwoStops settings.instanceId.toList = false
      ∧ '\x00' ∉ settings.instanceId.toList := by
  have hempty : settings.instanceId.toList = [] ↔ settings.instanceId = "" :=
    String.toList_eq_nil_iff
  rw [EntityId.Valid, ServerSettings.Usable, ne_eq, hempty]
  constructor
  · rintro ⟨hne, hhead, hstops, hchars⟩
    exact ⟨⟨hne, hhead, fun c hc => ⟨(hchars c hc).1, (hchars c hc).2.1⟩⟩, hstops,
      fun hmem => (hchars _ hmem).2.2 rfl⟩
  · rintro ⟨⟨hne, hhead, hslashes⟩, hstops, hnul⟩
    refine ⟨hne, hhead, hstops, fun c hc => ⟨(hslashes c hc).1, (hslashes c hc).2, ?_⟩⟩
    rintro rfl
    exact hnul hc

/-- What becomes of an identifier in an otherwise valid configuration. -/
structure Named (config : Config) (id : String) : Prop where
  /-- Validation takes it unless it is empty, begins with a full stop or has a slash. -/
  accepted : (config.named id).validate = .ok ()
    ↔ id ≠ "" ∧ id.toList.head? ≠ some '.' ∧ ∀ c ∈ id.toList, c ≠ '/' ∧ c ≠ '\\'
  /-- It is what is reported if it is not taken. -/
  rejected : (config.named id).validate ≠ .ok () →
    (config.named id).validate = .error (.instanceId id)
  /-- The store takes it if validation does and it has no two full stops in a row and no NUL
  character. -/
  storable : EntityId.Valid id ↔ (config.named id).validate = .ok ()
    ∧ EntityId.hasTwoStops id.toList = false ∧ '\x00' ∉ id.toList
  /-- Every heartbeat of a collector is refused if its identifier has two full stops in a row or a
  NUL character, whatever keeps the snapshots, and none is if it has not. -/
  refused : ∀ assembly, assemble (config.named id) = .ok assembly →
    ∀ {σ : Type} [Backend σ] startedAt tally queue attempts now (backend : σ),
      ((assembly.heartbeat startedAt).beat tally queue attempts now backend).1
          = .error (.invalidId id)
        ↔ EntityId.hasTwoStops id.toList = true ∨ '\x00' ∈ id.toList
  /-- A heartbeat that is refused leaves the snapshots as they were. -/
  silent : ∀ assembly, assemble (config.named id) = .ok assembly → ¬ EntityId.Valid id →
    ∀ {σ : Type} [Backend σ] startedAt tally queue attempts now (backend : σ),
      (assembly.heartbeat startedAt).beat tally queue attempts now backend
        = (.error (.invalidId id), backend)
  /-- With a file in the folders of the store, others see the collector. -/
  seen : ∀ assembly, assemble (config.named id) = .ok assembly →
    ∀ startedAt tally queue attempts now (folders : Folders),
      ((assembly.heartbeat startedAt).beat tally queue attempts now folders).1 = .ok () →
      ((assembly.heartbeat startedAt).beat tally queue attempts now folders).2.Listed
        EntityKind.server.name id now
  /-- With an id and room for its file, no heartbeat fails. -/
  stored : ∀ assembly, assemble (config.named id) = .ok assembly → EntityId.Valid id →
    ∀ startedAt tally queue now (folders : Folders),
      (folders.folder EntityKind.server.name).Roomy (fileName id) →
      ((assembly.heartbeat startedAt).beat tally queue assembly.pipeline.attempts now folders).1
        = .ok ()

variable {config : Config}

theorem validate_named_iff (h : config.Valid) (id : String) :
    (config.named id).validate = .ok () ↔ (config.named id).server.Usable := by
  rw [Config.validate_eq_ok_iff]
  exact ⟨fun hnamed => hnamed.instanceId, fun husable => { h with instanceId := husable }⟩

theorem validate_named_of_not_usable (h : config.Valid) {id : String}
    (husable : ¬ (config.named id).server.Usable) :
    (config.named id).validate = .error (.instanceId id) := by
  have hpositive : (config.named id).Positive := { h with }
  exact hpositive.validate_eq.trans (if_pos husable)

/-- Validation takes identifiers that the store does not take. -/
theorem named_of_validate (hvalidate : config.validate = .ok ()) (id : String) :
    Named config id := by
  have h := (Config.validate_eq_ok_iff config).mp hvalidate
  have haccepted := validate_named_iff h id
  have hstorable : EntityId.Valid id ↔ (config.named id).validate = .ok ()
      ∧ EntityId.hasTwoStops id.toList = false ∧ '\x00' ∉ id.toList := by
    rw [haccepted]
    exact valid_iff_usable (config.named id).server
  have hid {assembly : Assembly} (hassembly : assemble (config.named id) = .ok assembly)
      (startedAt : Instant) : (assembly.heartbeat startedAt).instanceId = id :=
    (assemble_eq_ok hassembly).2.2.2
  constructor
  case accepted => exact haccepted
  case rejected => exact fun hrejected =>
    validate_named_of_not_usable h fun husable => hrejected (haccepted.mpr husable)
  case storable => exact hstorable
  case refused =>
    intro assembly hassembly σ _ startedAt tally queue attempts now backend
    have hvalid := (Config.validate_eq_ok_iff _).mpr (assemble_eq_ok hassembly).1
    rw [Heartbeat.beat_eq_invalidId_iff, hid hassembly, hstorable, ← Bool.not_eq_true]
    tauto
  case silent =>
    intro assembly hassembly hinvalid σ _ startedAt tally queue attempts now backend
    rw [← hid hassembly startedAt] at hinvalid
    rw [Heartbeat.beat_of_not_valid _ tally queue attempts now hinvalid, hid hassembly]
  case seen =>
    intro assembly hassembly startedAt tally queue attempts now folders hok
    have hlisted := Heartbeat.listed_of_beat_eq_ok _ tally queue attempts now hok
    rwa [hid hassembly] at hlisted
  case stored =>
    intro assembly hassembly hvalid startedAt tally queue now folders hroomy
    rw [← hid hassembly startedAt] at hvalid hroomy
    exact Heartbeat.beat_eq_ok _ tally queue _ now hvalid (attempts_pos hassembly) hroomy

/-! ## An identifier with two full stops -/

/-- The first heartbeat of a collector with an id, with nothing in the store before, is seen. -/
theorem named_first_heartbeat :
    ∃ assembly, assemble (({} : Config).named "srv_a.1") = .ok assembly
      ∧ ((assembly.heartbeat .epoch).beat .zero (.new 5) assembly.pipeline.attempts .epoch
          (default : Folders)).1 = .ok ()
      ∧ ((assembly.heartbeat .epoch).beat .zero (.new 5) assembly.pipeline.attempts .epoch
          (default : Folders)).2.Listed "server" "srv_a.1" .epoch := by
  have hnamed : Named {} "srv_a.1" := named_of_validate (by decide +kernel) "srv_a.1"
  obtain ⟨assembly, hassembly⟩ :
      ∃ assembly, assemble (({} : Config).named "srv_a.1") = .ok assembly := ⟨_, rfl⟩
  have hroomy : ((default : Folders).folder EntityKind.server.name).Roomy (fileName "srv_a.1") :=
    ⟨by rintro ⟨⟩, by rintro ⟨⟩, by decide +kernel⟩
  have hok := hnamed.stored assembly hassembly (by decide +kernel) .epoch .zero (.new 5) .epoch
    default hroomy
  exact ⟨assembly, hassembly, hok, hnamed.seen assembly hassembly _ _ _ _ _ _ hok⟩

/-- A collector is put together with an identifier that has two full stops in a row, and its
heartbeat is refused and leaves nothing in the store. -/
theorem refused_two_stops :
    (({} : Config).named "a..b").validate = .ok () ∧ ¬ EntityId.Valid "a..b"
      ∧ ∃ assembly, assemble (({} : Config).named "a..b") = .ok assembly
        ∧ (assembly.heartbeat .epoch).beat .zero (.new 5) assembly.pipeline.attempts .epoch
            (default : Folders) = (.error (.invalidId "a..b"), default) := by
  refine ⟨by decide +kernel, by decide +kernel, _, rfl, ?_⟩
  exact Heartbeat.beat_of_not_valid _ _ _ _ _ (by decide +kernel) _

end Collector

end FieldTelemetry
