import FieldTelemetry.Proofs.Pipeline.Log
import FieldTelemetry.Proofs.Watch.Staleness

/-!
# Gateways that were heard

A pipeline knows that a gateway was heard at an instant or later when a request that came through it
was received then and a message of the request was accepted. A gateway whose messages were copies or
were dropped is not known to be heard.

## Main definitions

* `Part.heardAt?`: when a part tells that a gateway was heard
* `Session.Hears`: the gateways that were heard are those of the log

## Main results

* `Session.Hears.step`: every step of a session keeps it so
* `Session.heardSince_iff`: the gateways that were heard in a run
* `duplicate_not_heard`: a gateway that is not known after a copy came through it
-/

namespace FieldTelemetry.Pipeline

open Intake (Request)
open Stamp (StampStore)
open Store (Backend)
open Time (Instant)
open Wire (Message)

/-! ## Parts -/

/-- When a part tells that a gateway was heard. -/
def Part.heardAt? (gateway : String) : Part → Option Instant
  | .seeGateway id seen => if gateway = id then some seen else none
  | .seeDevice _ _ | .update _ _ | .export _ _ | .command _ => none

/-- The parts of a log tell that a gateway was heard when its requests were received. -/
theorem heardAt?_ledgerOf {attempts outlets : Nat} {log : List (Request × Outcome)}
    (h : Genuine log) (gateway : String) :
    (ledgerOf attempts outlets log).filterMap (Part.heardAt? gateway)
      = (heardBy gateway log).map Request.receivedAt := by
  refine pick_ledgerOf (fun ledger => ledger.filterMap (Part.heardAt? gateway))
    (fun log => (heardBy gateway log).map Request.receivedAt) rfl ?_ ?_ ?_ h
  · exact fun l l' => List.filterMap_append
  · intro log log'
    rw [heardBy_append, List.map_append]
  · intro request outcome hgenuine
    cases outcome with
    | accepted record =>
      obtain ⟨device, hdevice⟩ := hgenuine.exists_device
      rw [filterMap_partsOf _ _ hdevice, filterMap_exportsOf _ fun _ => rfl, gatewayParts,
        heardBy_accepted]
      cases hgateway : request.hints.id with
      | none => rfl
      | some id =>
        by_cases heq : gateway = id
        · simp [Part.heardAt?, heq, List.filterMap_cons]
        · simp [Part.heardAt?, heq, Ne.symm heq]
    | _ => rfl

section Frames

variable {σ τ : Type} {p p' : Pipeline σ τ} {now : Instant}

theorem Shelf.gateways_put (shelf : Shelf) (p : Pipeline σ τ) (lanes : Store.Lanes) (backend : σ) :
    (shelf.put p lanes backend).gateways = p.gateways := by
  cases shelf <;> rfl

/-- Only the part that tells that a gateway was heard changes which gateways were. -/
theorem Part.heardSince_handOut (part : Part) {gateway : String} {t : Instant} :
    (part.handOut p now).gateways.HeardSince gateway t
      ↔ (∃ seen, part.heardAt? gateway = some seen ∧ t ≤ seen)
        ∨ p.gateways.HeardSince gateway t := by
  cases part with
  | seeGateway id seen =>
    have hobserved : (Part.handOut p now (.seeGateway id seen)).gateways
        = (p.gateways.observe id seen now).2 := rfl
    rw [hobserved, Watch.Tracker.heardSince_observe, heardAt?]
    simp
  | update shelf call =>
    have hkept : (Part.handOut p now (.update shelf call)).gateways = p.gateways :=
      shelf.gateways_put ..
    rw [hkept, heardAt?]
    simp
  | _ => simp [heardAt?, handOut, Pipeline.seeDevice, Pipeline.notify, Pipeline.add]

/-- Tasks do not change which gateways were heard. -/
theorem Task.gateways_next? [Backend σ] {task : Task} {next : Option Task}
    (h : task.next? p now = some (next, p')) : p'.gateways = p.gateways := by
  cases task with
  | «export» number record =>
    cases h
    obtain ⟨-, hdeliver⟩ | ⟨_, _, _, -, -, hdeliver⟩ := Books.deliver_cases p number record
    · rw [hdeliver]
    · rw [hdeliver]
  | update shelf job =>
    simp only [Task.next?, Option.bind_eq_bind, Option.bind_eq_some_iff] at h
    obtain ⟨⟨rest, lanes, backend⟩, -, ⟨⟩⟩ := h
    obtain ⟨state, hstate⟩ := Books.exists_state_countEnded (shelf.put p lanes backend) job
    rw [hstate]
    exact shelf.gateways_put p lanes backend
  | _ =>
    cases h
    rfl

end Frames

/-! ## A message through two gateways -/

/-- A message of a device with a measurement. -/
def countingMessage : Message :=
  (Message.empty.set .deviceId (100 : UInt32)).set .tube0 (35 : UInt32)

/-- A request with that message, which came through a gateway. -/
def relayingRequest (gateway : String) : Request :=
  ⟨countingMessage.encode, "gateway-mqtt", .epoch, { id := some gateway }, 0⟩

/-- A pipeline in which nothing has been handled. -/
def quietPipeline : Pipeline Store.Memory Store.Folder := .new {} [] default .empty

/-- The reading of the first request. -/
def countingRecord : SensorRecord :=
  Normalizer.recordOf (relayingRequest "gw1") countingMessage.checksum countingMessage none false

/-- The outcomes of both requests, and the gateways that are known afterwards. -/
def relayedTwice : Option (List Outcome × List Outcome × List (String × Watch.Presence)) :=
  (quietPipeline.handle (relayingRequest "gw1") .epoch).toOption.bind fun (outcomes, p) =>
    (p.handle (relayingRequest "gw2") .epoch).toOption.map fun (outcomes', p') =>
      (outcomes, outcomes', p'.gateways.members.entries)

theorem exists_relayedTwice :
    ∃ p p', quietPipeline.handle (relayingRequest "gw1") .epoch
        = .ok ([.accepted countingRecord], p)
      ∧ p.handle (relayingRequest "gw2") .epoch = .ok ([.duplicate countingMessage.checksum], p')
      ∧ p'.gateways.members.entries = [("gw1", ⟨.epoch, true, false⟩)] := by
  have hboth : relayedTwice = some ([.accepted countingRecord],
      [.duplicate countingMessage.checksum], [("gw1", ⟨.epoch, true, false⟩)]) := by
    decide +kernel
  obtain ⟨⟨outcomes, p⟩, hfirst, hsecond⟩ := Option.bind_eq_some_iff.mp hboth
  obtain ⟨⟨outcomes', p'⟩, hsecond, hboth⟩ := Option.map_eq_some_iff.mp hsecond
  simp only [Prod.mk.injEq] at hboth
  obtain ⟨rfl, rfl, hentries⟩ := hboth
  exact ⟨p, p', Normalizer.eq_ok_of_toOption hfirst, Normalizer.eq_ok_of_toOption hsecond, hentries⟩

/-! ## Runs -/

namespace Session

variable {σ τ : Type} [Backend σ] {s s' : Session σ τ}

/-- The gateways that were heard, with those that parts still tell of, are the ones whose requests
are in the log, at the times when these were received. -/
structure Hears (s : Session σ τ) : Prop where
  /-- Everything that is accepted in the log is a reading of a device. -/
  genuine : Genuine s.log
  /-- Requests of the log and nothing else tell of gateways. -/
  heard (gateway : String) (t : Instant) :
    ((∃ seen ∈ s.due.filterMap (Part.heardAt? gateway), t ≤ seen)
        ∨ s.pipeline.gateways.HeardSince gateway t)
      ↔ ∃ request ∈ heardBy gateway s.log, t ≤ request.receivedAt

variable [StampStore τ]

theorem Hears.step (h : Hears s) (hstep : Step s s') : Hears s' := by
  cases hstep with
  | @process p tasks log request clock outcomes state hprocess =>
    have hgenuine := genuine_of_processOver hprocess
    refine ⟨Genuine.append_iff.mpr ⟨h.genuine, hgenuine⟩, ?_⟩
    intro gateway t
    -- Nothing was due before, and the new parts are those of the new outcomes.
    have hbefore : p.gateways.HeardSince gateway t
        ↔ ∃ request ∈ heardBy gateway log, t ≤ request.receivedAt := by
      simpa using h.heard gateway t
    have hdue : (outcomes.flatMap (partsOf p.attempts p.outlets.length request)).filterMap
          (Part.heardAt? gateway)
        = (heardBy gateway (outcomes.map fun outcome => (request, outcome))).map
          Request.receivedAt := by
      rw [← heardAt?_ledgerOf hgenuine gateway, ledgerOf, List.flatMap_map]
    dsimp only
    rw [hdue, heardBy_append, hbefore]
    simp only [List.mem_map, List.mem_append, exists_exists_and_eq_and, or_and_right, exists_or,
      or_comm]
  | @handOut p part due tasks log now =>
    refine ⟨h.genuine, ?_⟩
    intro gateway t
    have hbefore := h.heard gateway t
    dsimp only [handedOut] at hbefore ⊢
    rw [part.heardSince_handOut, ← hbefore]
    cases hseen : part.heardAt? gateway with
    | none => simp [List.filterMap_cons_none hseen]
    | some seen => simp [List.filterMap_cons_some hseen, or_assoc, or_left_comm]
  | task hstep =>
    obtain ⟨hnext⟩ := hstep
    refine ⟨h.genuine, ?_⟩
    intro gateway t
    rw [Task.gateways_next? hnext]
    exact h.heard gateway t

theorem Hears.run (h : Hears s) (hsteps : Relation.ReflTransGen Step s s') : Hears s' := by
  induction hsteps with
  | refl => exact h
  | tail _ hstep ih => exact ih.step hstep

variable {settings : Settings} {outlets : List Delivery.Outlet} {backend : σ} {files : τ}

omit [Backend σ] [StampStore τ] in
theorem hears_new : Hears ({ pipeline := .new settings outlets backend files } : Session σ τ) := by
  refine ⟨fun _ _ hmem => absurd hmem List.not_mem_nil, ?_⟩
  intro gateway t
  constructor
  · rintro (⟨seen, hmem, -⟩ | hheard)
    · exact absurd hmem List.not_mem_nil
    · exact absurd hheard (Watch.Tracker.not_heardSince_new "gateway" settings.gatewayStale)
  · rintro ⟨request, hmem, -⟩
    exact absurd hmem List.not_mem_nil

/-- In every run of a new pipeline, when all parts have been handed out, a gateway was heard at an
instant or later if and only if a request that came through it was received then and a message of
the request was accepted. -/
theorem heardSince_iff
    (hsteps : Relation.ReflTransGen Step
      ({ pipeline := .new settings outlets backend files } : Session σ τ) s)
    (hdue : s.due = []) (gateway : String) (t : Instant) :
    s.pipeline.gateways.HeardSince gateway t
      ↔ ∃ request ∈ heardBy gateway s.log, t ≤ request.receivedAt := by
  have hheard := (hears_new.run hsteps).heard gateway t
  rw [hdue] at hheard
  simpa using hheard

theorem heardSince_relaying :
    ∃ s : Session Store.Memory Store.Folder,
      Relation.ReflTransGen Step { pipeline := quietPipeline } s ∧ s.due = []
        ∧ s.log = [(relayingRequest "gw1", .accepted countingRecord)]
        ∧ s.pipeline.gateways.HeardSince "gw1" .epoch := by
  obtain ⟨p, p', hfirst, -, -⟩ := exists_relayedTwice
  have hsteps : Relation.ReflTransGen Step { pipeline := quietPipeline }
      (handedOut p [] [] [(relayingRequest "gw1", .accepted countingRecord)]) :=
    steps_of_handle rfl hfirst
  have hheard : relayingRequest "gw1"
      ∈ heardBy "gw1" [(relayingRequest "gw1", .accepted countingRecord)] := by
    have hgateway : (relayingRequest "gw1").hints.id = some "gw1" := rfl
    rw [heardBy_accepted, if_pos hgateway]
    exact List.mem_singleton_self _
  refine ⟨_, hsteps, rfl, rfl, ?_⟩
  exact (heardSince_iff hsteps rfl "gw1" .epoch).mpr ⟨_, hheard, by decide⟩

end Session

/-- A gateway is not known after a request came through it whose message is a copy of one that came
through another gateway. -/
theorem duplicate_not_heard :
    ∃ p p', quietPipeline.handle (relayingRequest "gw1") .epoch
        = .ok ([.accepted countingRecord], p)
      ∧ p.handle (relayingRequest "gw2") .epoch = .ok ([.duplicate countingMessage.checksum], p')
      ∧ (relayingRequest "gw2").hints.id = some "gw2"
      ∧ Message.decode (relayingRequest "gw2").payload = .ok countingMessage
      ∧ countingMessage.isSensor = true ∧ countingMessage.entityId? = some "100"
      ∧ p'.gateways.presence? "gw2" = none := by
  obtain ⟨p, p', hfirst, hsecond, hentries⟩ := exists_relayedTwice
  refine ⟨p, p', hfirst, hsecond, rfl, Normalizer.eq_ok_of_toOption (by decide +kernel), by decide,
    by decide, ?_⟩
  rw [Watch.Tracker.presence?, Table.get?, hentries]
  rfl

end FieldTelemetry.Pipeline
