import FieldTelemetry.Proofs.Pipeline.Advance
import FieldTelemetry.Proofs.Pipeline.Log

/-!
# What all work leaves

However the steps of requests and tasks come, when all tasks have ended the store, the sinks and the
operators have what a sequential program would have left: one that merges every reading, in the
order of handling, into the snapshots of its device and gateway.

## Main definitions

* `Sequential`: what a sequential program leaves
* `Session.Kept`: a session whose parts and tasks are those of its log

## Main results

* `Session.Kept.step`: every step of a session keeps it so
* `Session.sequential_of_flushed`: what is left when all tasks have ended
-/

namespace FieldTelemetry.Pipeline

open Delivery (Command Outlet)
open Intake (Request)
open Stamp (StampStore)
open Store (EntityId.Valid EntityKind Lasts Memory Origin Progress Snapshot Survive callsOf)
open Time (Instant)
open Wire (Message)

/-! ## What a sequential program leaves -/

/-- The readings of a log update an entity that has an id. -/
def Touches (log : List (Request × Outcome)) (kind id : String) : Prop :=
  EntityId.Valid id ∧ ((kind = EntityKind.device.name ∨ kind = EntityKind.value.name)
      ∧ readingsOf id log ≠ []
    ∨ kind = EntityKind.gateway.name ∧ heardBy id log ≠ [])

/-- What a program leaves that does everything at once, one outcome of the log after the other. -/
structure Sequential {τ : Type} (start : Pipeline Memory τ) (log : List (Request × Outcome))
    (p : Pipeline Memory τ) : Prop where
  /-- The readings of a device are merged into its snapshot. -/
  device : ∀ id, EntityId.Valid id → ∀ now, (p.backend.snapshot EntityKind.device id).content
    = ((readingsOf id log).foldl (fun s (request, record) =>
        s.updated EntityKind.device id record (Pipeline.originOf request) now)
      (start.backend.snapshot EntityKind.device id)).content
  /-- What consumers of values see of them is merged into the snapshot of its values. -/
  value : ∀ id, EntityId.Valid id → ∀ now, (p.backend.snapshot EntityKind.value id).content
    = ((readingsOf id log).foldl (fun s (request, record) =>
        s.updated EntityKind.value id record (Pipeline.originOf request) now)
      (start.backend.snapshot EntityKind.value id)).content
  /-- What the requests of readings tell of a gateway is merged into its snapshot. -/
  gateway : ∀ id, EntityId.Valid id → ∀ now, (p.backend.snapshot EntityKind.gateway id).content
    = ((heardBy id log).foldl (fun s request =>
        s.updated EntityKind.gateway id (Pipeline.statusOf request)
          (Origin.ofTransport request.transport) now)
      (start.backend.snapshot EntityKind.gateway id)).content
  /-- What is stored of entities that were updated is read back as it was written. -/
  readable : ∀ (shelf : Shelf) (id : String), Touches log shelf.kind.name id →
    ∃ (s : Snapshot shelf.State) (modified : Instant),
      p.backend.stored? shelf.kind id = some (s.render, modified)
        ∧ Snapshot.ofOctets? s.render = some s
  /-- Nothing else is written. -/
  unwritten : ∀ kind id, ¬ Touches log kind id →
    p.backend.snapshots.get? (kind, id) = start.backend.snapshots.get? (kind, id)
  /-- Every sink gets every reading once, and one that takes readings in time has kept them. -/
  outlets : ∀ (number : Nat) (outlet : Outlet), start.outlets[number]? = some outlet →
    ∃ sent last, sent.Perm ((readings log).map Prod.snd)
      ∧ last = outlet.receiveAll sent ∧ p.outlets[number]? = some last
      ∧ (outlet.Working → last.recorder.records = outlet.recorder.records ++ sent)
  /-- The operators get every command once. -/
  commands : ∃ sent, sent.Perm (commandsOf log)
    ∧ p.desk.commands = start.desk.commands ++ sent

/-! ## Sessions from a start -/

namespace Session

variable {τ : Type} {start : Pipeline Memory τ} {s s' : Session Memory τ}

/-- The parts of all outcomes of a session, as many as its start gives rise to. -/
def ledger (start : Pipeline Memory τ) (log : List (Request × Outcome)) : List Part :=
  ledgerOf start.attempts start.outlets.length log

/-- The parts of the log have been handed out, or they are due. Of the former there are books. -/
structure Kept (start : Pipeline Memory τ) (s : Session Memory τ) : Prop where
  /-- What has been handed out is done, or a task is at work on it. -/
  books : ∃ out, ledger start s.log = out ++ s.due ∧ Books start out s.pipeline s.tasks
  /-- Nothing is handed out but to tasks. -/
  pending : s.pipeline.pending = []
  /-- What is accepted is a reading. -/
  genuine : Genuine s.log

namespace Kept

/-- The updates that have been handed out can be stored. -/
theorem sound (h : Kept start s) (hattempts : 0 < start.attempts)
    (hsurvive : ∀ reading ∈ readings s.log, Survive reading.2) {out : List Part}
    (hout : ledger start s.log = out ++ s.due) : Sound out := by
  intro shelf call hcall
  apply sound_ledgerOf hattempts start.outlets.length h.genuine hsurvive shelf call
  rw [← ledger, hout]
  exact List.mem_append_left _ hcall

/-- A step of a task keeps a session so. -/
theorem taskStep (h : Kept start s) (hattempts : 0 < start.attempts)
    (hsurvive : ∀ reading ∈ readings s.log, Survive reading.2) (hstep : TaskStep s s') :
    Kept start s' := by
  obtain ⟨out, hout, hbooks⟩ := h.books
  have hsound := h.sound hattempts hsurvive hout
  obtain ⟨hnext⟩ := hstep
  exact ⟨⟨out, hout, hbooks.next hsound hnext⟩, (Task.next?_frame hnext).2.2.trans h.pending,
    h.genuine⟩

variable [StampStore τ]

/-- Every step of a session keeps it so. -/
theorem step (h : Kept start s) (hattempts : 0 < start.attempts)
    (hsurvive : ∀ reading ∈ readings s.log, Survive reading.2) (hstep : Step s s') :
    Kept start s' := by
  cases hstep with
  | task hstep => exact h.taskStep hattempts hsurvive hstep
  | @process p tasks log request clock outcomes state hprocess =>
    obtain ⟨out, hout, hbooks⟩ := h.books
    refine ⟨⟨out, ?_, ?_⟩, h.pending, ?_⟩
    · dsimp only at hout hbooks ⊢
      rw [List.append_nil] at hout
      -- The new outcomes give rise to the parts that are due now.
      rw [ledger, ledgerOf_append, ledgerOf_request, ← ledger, hout, hbooks.attempts_eq,
        hbooks.length_outlets]
    · exact hbooks.congr state p.devices p.gateways p.pending
    · exact Genuine.append_iff.mpr ⟨h.genuine, genuine_of_processOver hprocess⟩
  | @handOut p part due tasks log now =>
    obtain ⟨out, hout, hbooks⟩ := h.books
    have hpending : p.pending = [] := h.pending
    -- The part is one of the log, so it can be stored.
    have hpart : Sound [part] := by
      intro shelf call hcall
      apply sound_ledgerOf hattempts start.outlets.length h.genuine hsurvive shelf call
      rw [← ledger, hout, ← List.mem_singleton.mp hcall]
      exact List.mem_append_right _ List.mem_cons_self
    have hnoted : Noted start out tasks p := by
      rw [Noted, hpending, List.map_nil, List.append_nil]
      exact hbooks
    refine ⟨⟨out ++ [part], ?_, ?_⟩, rfl, h.genuine⟩
    · rw [List.append_assoc]
      exact hout
    · exact (hnoted.handOut part now hpart).congr _ _ _ []

/-- The log only grows. -/
theorem prefix_log (hstep : Step s s') : s.log <+: s'.log := by
  cases hstep with
  | process => exact List.prefix_append ..
  | handOut => exact List.prefix_rfl
  | task hstep =>
    obtain ⟨_⟩ := hstep
    exact List.prefix_rfl

/-- Sessions are kept so in every run. -/
theorem run (h : Kept start s) (hattempts : 0 < start.attempts)
    (hsteps : Relation.ReflTransGen Step s s')
    (hsurvive : ∀ reading ∈ readings s'.log, Survive reading.2) : Kept start s' := by
  induction hsteps with
  | refl => exact h
  | @tail between last _ hstep ih =>
    -- The readings so far are among those at the end, as logs only grow.
    have hbetween : ∀ reading ∈ readings between.log, Survive reading.2 := by
      intro reading hreading
      exact hsurvive reading (((prefix_log hstep).filterMap _).subset hreading)
    exact (ih hbetween).step hattempts hbetween hstep

end Kept

/-! ## The end of all tasks -/

/-- A session with tasks goes on: the first of them has not to wait. -/
theorem Kept.exists_taskStep (h : Kept start s) (htasks : s.tasks ≠ []) (now : Instant) :
    ∃ s', TaskStep s s' := by
  obtain ⟨out, -, hbooks⟩ := h.books
  obtain ⟨p, due, tasks, log⟩ := s
  cases tasks with
  | nil => exact absurd rfl htasks
  | cons task back =>
    have hnext : ∃ next p', task.next? p now = some (next, p') := by
      -- Only an update may have to wait, and the first one of all has the first ticket.
      cases task with
      | update shelf job =>
        have hprogress := hbooks.updates shelf
        dsimp only at hprogress
        rw [List.filterMap_cons_some (Task.job?_self shelf job)] at hprogress
        obtain ⟨next, lanes, memory, hjob⟩ := hprogress.exists_next now
        rw [Task.next?, hjob]
        exact ⟨_, _, rfl⟩
      | _ => exact ⟨_, _, rfl⟩
    obtain ⟨next, p', hnext⟩ := hnext
    have hstep : TaskStep ⟨p, due, [] ++ task :: back, log⟩
        ⟨p', due, [] ++ next.toList ++ back, log⟩ := .next hnext
    exact ⟨_, hstep⟩

/-- All tasks end. -/
theorem Kept.exists_flushed (h : Kept start s) (hattempts : 0 < start.attempts)
    (hsurvive : ∀ reading ∈ readings s.log, Survive reading.2) : ∃ s', Flushed s s' := by
  -- The induction is on the number of steps that are left.
  induction hleft : s.left using Nat.strong_induction_on generalizing s with
  | _ n ih =>
    by_cases htasks : s.tasks = []
    · exact ⟨s, .refl, htasks⟩
    · obtain ⟨between, hstep⟩ := h.exists_taskStep htasks .epoch
      have hkept := h.taskStep hattempts hsurvive hstep
      obtain ⟨s', hsteps, hidle⟩ := ih between.left (hleft ▸ hstep.left_lt) hkept
        (hstep.frame.2 ▸ hsurvive) rfl
      exact ⟨s', .head hstep hsteps, hidle⟩

theorem Kept.flushed (h : Kept start s) (hattempts : 0 < start.attempts)
    (hsurvive : ∀ reading ∈ readings s.log, Survive reading.2)
    (hsteps : Relation.ReflTransGen TaskStep s s') :
    Kept start s' ∧ s'.due = s.due ∧ s'.log = s.log := by
  induction hsteps with
  | refl => exact ⟨h, rfl, rfl⟩
  | tail _ hstep ih =>
    obtain ⟨hkept, hdue, hlog⟩ := ih
    obtain ⟨hdue', hlog'⟩ := hstep.frame
    exact ⟨hkept.taskStep hattempts (hlog ▸ hsurvive) hstep, hdue'.trans hdue, hlog'.trans hlog⟩

/-! ## What is left -/

section Left

variable {log : List (Request × Outcome)} {p : Pipeline Memory τ}

/-- There are calls of a kind for an entity if and only if readings update it. -/
theorem callsOf_eq_nil_iff (start : Pipeline Memory τ) (h : Genuine log) (shelf : Shelf)
    {id : String} (hid : EntityId.Valid id) :
    callsOf id ((ledger start log).filterMap (Part.call? shelf)) = []
      ↔ ¬ Touches log shelf.kind.name id := by
  cases shelf with
  | device =>
    rw [ledger, callsOf_readings call_device (fun _ => rfl) h, List.map_eq_nil_iff]
    simp [Touches, hid, Shelf.kind, EntityKind.device, EntityKind.value, EntityKind.gateway]
  | value =>
    rw [ledger, callsOf_readings call_value (fun _ => rfl) h, List.map_eq_nil_iff]
    simp [Touches, hid, Shelf.kind, EntityKind.device, EntityKind.value, EntityKind.gateway]
  | gateway =>
    rw [ledger, callsOf_gateway h, List.map_eq_nil_iff]
    simp [Touches, hid, Shelf.kind, EntityKind.device, EntityKind.value, EntityKind.gateway]

/-- When all parts are done, a sequential program would have left the same. -/
theorem sequential_of_books (h : Genuine log) (hbooks : Books start (ledger start log) p []) :
    Sequential start log p := by
  refine ⟨?_, ?_, ?_, ?_, ?_, ?_, ?_⟩
  · intro id hid now
    have hcontent := ((hbooks.updates .device).settled hid).content now
    rw [ledger, callsOf_readings call_device (fun _ => rfl) h, Snapshot.after, List.foldl_map]
      at hcontent
    simp only [Store.Call.onto_eq_updated] at hcontent
    exact hcontent
  · intro id hid now
    have hcontent := ((hbooks.updates .value).settled hid).content now
    rw [ledger, callsOf_readings call_value (fun _ => rfl) h, Snapshot.after, List.foldl_map]
      at hcontent
    simp only [Store.Call.onto_eq_updated] at hcontent
    exact hcontent
  · intro id hid now
    have hcontent := ((hbooks.updates .gateway).settled hid).content now
    rw [ledger, callsOf_gateway h, Snapshot.after, List.foldl_map] at hcontent
    simp only [Store.Call.onto_eq_updated] at hcontent
    exact hcontent
  · intro shelf id htouches
    apply ((hbooks.updates shelf).settled htouches.1).written
    -- An entity with readings has calls.
    intro hnil
    exact (callsOf_eq_nil_iff start h shelf htouches.1).mp hnil htouches
  · intro kind id htouches
    -- A kind that readings do not update has no calls at all. For the others there are calls or the
    -- id is none.
    by_cases hkind : ∀ shelf : Shelf, kind ≠ shelf.kind.name
    · exact hbooks.others (kind, id) hkind
    · obtain ⟨shelf, rfl⟩ := not_forall_not.mp hkind
      by_cases hid : EntityId.Valid id
      · apply ((hbooks.updates shelf).settled hid).unchanged
        exact (callsOf_eq_nil_iff start h shelf hid).mpr htouches
      · exact (hbooks.updates shelf).unchanged hid
  · intro number outlet houtlet
    obtain ⟨sent, hsent, hperm⟩ := hbooks.outlets number outlet houtlet
    have hnumber := (List.getElem?_eq_some_iff.mp houtlet).1
    rw [ledger, exportTo?_ledgerOf h hnumber, List.filterMap_nil, List.append_nil] at hperm
    exact ⟨sent, _, hperm, rfl, hsent, fun hworking => outlet.records_receiveAll hworking sent⟩
  · obtain ⟨sent, hdesk, hperm⟩ := hbooks.commands
    rw [ledger, command?_ledgerOf h, List.filterMap_nil, List.append_nil] at hperm
    exact ⟨sent, hperm, hdesk⟩

end Left

/-! ## Runs of a new pipeline -/

section New

variable [StampStore τ] (settings : Settings) (outlets : List Outlet) (memory : Memory) (files : τ)

/-- A session in which nothing has been handled. -/
def new : Session Memory τ := { pipeline := .new settings outlets memory files }

omit [StampStore τ] in
theorem lasts_snapshot {α : Type} [Store.Mergeable α] [Store.Lasting α] (kind : EntityKind α)
    {id : String} (h : Survive (memory.snapshot kind id)) : Lasts (memory.snapshot kind id) := by
  refine ⟨h, ?_⟩
  have hempty : Lasts (Snapshot.empty : Snapshot α) := Snapshot.lasts_empty
  rw [Memory.snapshot, Memory.snapshotOf, Store.Call.stored]
  -- What was stored by somebody else counts as empty when it cannot be read.
  cases hread : ((memory.stored? kind id).map Prod.fst).bind (Snapshot.ofOctets? (α := α)) with
  | none => exact hempty.complete
  | some s =>
    obtain ⟨octets, -, hoctets⟩ := Option.bind_eq_some_iff.mp hread
    exact Snapshot.complete_of_ofOctets? hoctets

omit [StampStore τ] in
/-- At the start all books are empty. -/
theorem kept_new (h : ∀ (shelf : Shelf) (id : String), Survive (memory.snapshot shelf.kind id)) :
    Kept (new settings outlets memory files).pipeline (new settings outlets memory files) := by
  refine ⟨⟨[], rfl, ?_⟩, rfl, fun _ _ hmem => absurd hmem List.not_mem_nil⟩
  refine ⟨rfl, ?_, fun _ _ => rfl, rfl, ?_, ?_⟩
  · intro shelf
    have hstart := Progress.start fun id => lasts_snapshot memory shelf.kind (h shelf id)
    cases shelf <;> exact hstart
  · intro number outlet houtlet
    exact ⟨[], houtlet, .nil⟩
  · exact ⟨[], rfl, .nil⟩

variable {settings outlets memory files}

/-- In every run of a new pipeline over a memory, all tasks can end, and when they have, everything
is as a sequential program would have left it. -/
theorem sequential_of_flushed (hattempts : 0 < settings.attempts)
    (hmemory : ∀ (shelf : Shelf) (id : String), Survive (memory.snapshot shelf.kind id))
    {s : Session Memory τ}
    (hsteps : Relation.ReflTransGen Step (new settings outlets memory files) s) (hdue : s.due = [])
    (hsurvive : ∀ reading ∈ readings s.log, Survive reading.2) :
    (∃ s', Flushed s s') ∧ ∀ s', Flushed s s' → s'.log = s.log
      ∧ Sequential (.new settings outlets memory files) s.log s'.pipeline := by
  have hkept := (kept_new settings outlets memory files hmemory).run hattempts hsteps hsurvive
  refine ⟨hkept.exists_flushed hattempts hsurvive, ?_⟩
  intro s' hflushed
  obtain ⟨hlast, hdue', hlog⟩ := hkept.flushed hattempts hsurvive hflushed.steps
  obtain ⟨out, hout, hbooks⟩ := hlast.books
  refine ⟨hlog, ?_⟩
  -- Nothing is due, so everything of the log has been handed out.
  rw [hdue', hdue, List.append_nil] at hout
  rw [← hout, hlog, hflushed.idle] at hbooks
  exact sequential_of_books hkept.genuine hbooks

/-- A request with two messages of a device that a gateway heard. -/
def heardRequest : Request where
  payload :=
    let message (latitude : Binary32) : Octets :=
      ((Message.empty.set .deviceId (100 : UInt32)).set .latitude latitude).encode
    (Wire.join [message ⟨0x3fc00000⟩, message ⟨0xbf000000⟩]).toOption.getD []
  transport := "device-udp:192.0.2.10"
  receivedAt := .epoch
  hints := { id := some "gw1", lat := some ⟨0x3fc00000⟩ }

/-- The readings of a request that was handled when nothing was stored. -/
def readingsFirst (request : Request) : Option (List SensorRecord) :=
  match (Pipeline.new {} [{}] (default : Memory) Store.Folder.empty).handle request .epoch with
  | .ok (outcomes, _) =>
    some ((readings (outcomes.map fun outcome => (request, outcome))).map Prod.snd)
  | .error _ => none

/-- When nothing was stored, two readings of a request are left as a sequential program would have
left them. -/
theorem sequential_of_flushed_heard :
    ∃ s : Session Memory Store.Folder,
      Relation.ReflTransGen Step (new {} [{}] default .empty) s ∧ (readings s.log).length = 2
        ∧ (∃ s', Flushed s s') ∧ ∀ s', Flushed s s' →
          s'.log = s.log ∧ Sequential (.new {} [{}] default .empty) s.log s'.pipeline := by
  -- The request is handled, and its readings have numbers that survive.
  have hchecked : (readingsFirst heardRequest).any (fun records => records.length = 2
      ∧ ∀ record ∈ records, ∀ n ∈ Json.Lossless.numbers record, (Json.ofSingle n).single? = some n)
        = true := by
    decide +kernel
  rw [readingsFirst] at hchecked
  split at hchecked
  · rename_i outcomes p' hhandle
    obtain ⟨hlength, hlasting⟩ := of_decide_eq_true hchecked
    have hsteps : Relation.ReflTransGen Step (new {} [{}] default .empty)
        (handedOut p' [] [] (outcomes.map fun outcome => (heardRequest, outcome))) :=
      steps_of_handle rfl hhandle
    have hmemory (shelf : Shelf) (id : String) :
        Survive ((default : Memory).snapshot shelf.kind id) :=
      Snapshot.lasts_empty.survive
    refine ⟨_, hsteps, (List.length_map _).symm.trans hlength, ?_⟩
    apply sequential_of_flushed (by decide) hmemory hsteps rfl
    intro reading hreading n hn
    rw [Binary32.survives_iff]
    exact hlasting reading.2 (List.mem_map_of_mem hreading) n hn
  · cases hchecked

end New

end Session

end FieldTelemetry.Pipeline
