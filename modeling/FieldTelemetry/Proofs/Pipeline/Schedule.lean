import FieldTelemetry.Pipeline.Dispatch
import FieldTelemetry.Proofs.Pipeline.Traffic
import FieldTelemetry.Proofs.Store.Endings
import FieldTelemetry.Proofs.Store.Schedule
import Mathlib.Logic.Relation

/-!
# Work in any order

The work that a pipeline hands out is done by tasks, whose steps come in any order, between requests
and while the work of a request is being handed out. Only calls for the same entity wait for each
other.

## Main definitions

* `Shelf`: the kinds of entities that readings update
* `Part`, `partsOf`: a part of the work of an outcome, and all its parts
* `Task`: a piece of work that has been handed out, with its next step
* `Session`: a pipeline with the parts to be handed out, the tasks at work and the outcomes so far
* `Session.TaskStep`, `Session.Step`: a step of a task, and any step of a session
* `Session.Flushed`: all tasks have ended

## Main results

* `dispatch_eq`: the work of an outcome is handed out in its parts
* `Session.TaskStep.left_lt`: every step of a task brings a session nearer to the end of all tasks
* `Session.steps_of_handle`, `Session.steps_of_run?`: what is done at once is done in steps
-/

namespace FieldTelemetry.Pipeline

open Delivery (Command)
open Intake (Request)
open Stamp (StampStore)
open Store (Backend Call EntityKind GatewayStatus Job Lanes Lasting Mergeable Origin Phase Queued)
open Time (Instant)

/-! ## Kinds of updates -/

/-- The kinds of entities that readings update. -/
inductive Shelf
  /-- Devices. -/
  | device
  /-- Devices as consumers of their values see them. -/
  | value
  /-- Gateways. -/
  | gateway
deriving DecidableEq

namespace Shelf

/-- The states of entities of a kind. -/
abbrev State : Shelf → Type
  | .device | .value => SensorRecord
  | .gateway => GatewayStatus

instance : (shelf : Shelf) → Mergeable shelf.State
  | .device | .value => inferInstanceAs (Mergeable SensorRecord)
  | .gateway => inferInstanceAs (Mergeable GatewayStatus)

instance : (shelf : Shelf) → Lasting shelf.State
  | .device | .value => inferInstanceAs (Lasting SensorRecord)
  | .gateway => inferInstanceAs (Lasting GatewayStatus)

/-- The kind of entities. -/
def kind : (shelf : Shelf) → EntityKind shelf.State
  | .device => EntityKind.device
  | .value => EntityKind.value
  | .gateway => EntityKind.gateway

theorem name_kind_ne {shelf other : Shelf} (h : shelf ≠ other) :
    shelf.kind.name ≠ other.kind.name := by
  cases shelf <;> cases other <;> first | exact absurd rfl h | decide

variable {σ τ : Type}

/-- The lanes for updates of a kind. -/
def lanes (shelf : Shelf) (p : Pipeline σ τ) : Lanes :=
  match shelf with
  | .device => p.deviceLanes
  | .value => p.valueLanes
  | .gateway => p.gatewayLanes

/-- The pipeline with other lanes for updates of a kind, and with another backend. -/
def put (shelf : Shelf) (p : Pipeline σ τ) (lanes : Lanes) (backend : σ) : Pipeline σ τ :=
  match shelf with
  | .device => { p with deviceLanes := lanes, backend }
  | .value => { p with valueLanes := lanes, backend }
  | .gateway => { p with gatewayLanes := lanes, backend }

section Put

variable (shelf : Shelf) (p : Pipeline σ τ) (lanes lanes' : Lanes) (backend backend' : σ)

theorem put_self : shelf.put p (shelf.lanes p) p.backend = p := by cases shelf <;> rfl

theorem lanes_put : shelf.lanes (shelf.put p lanes backend) = lanes := by cases shelf <;> rfl

theorem lanes_put_of_ne {other : Shelf} (h : other ≠ shelf) :
    other.lanes (shelf.put p lanes backend) = other.lanes p := by
  cases shelf <;> cases other <;> first | exact absurd rfl h | rfl

theorem backend_put : (shelf.put p lanes backend).backend = backend := by cases shelf <;> rfl

theorem attempts_put : (shelf.put p lanes backend).attempts = p.attempts := by cases shelf <;> rfl

theorem outlets_put : (shelf.put p lanes backend).outlets = p.outlets := by cases shelf <;> rfl

theorem desk_put : (shelf.put p lanes backend).desk = p.desk := by cases shelf <;> rfl

theorem pending_put : (shelf.put p lanes backend).pending = p.pending := by cases shelf <;> rfl

theorem put_put : shelf.put (shelf.put p lanes backend) lanes' backend'
    = shelf.put p lanes' backend' := by
  cases shelf <;> rfl

end Put

/-- The work of a call of a kind. -/
def work : (shelf : Shelf) → Queued shelf.State → Work
  | .device => .device
  | .value => .value
  | .gateway => .gateway

end Shelf

/-! ## Parts -/

/-- A part of the work of an outcome. -/
inductive Part
  /-- A device was heard. -/
  | seeDevice (id : String) (seen : Instant)
  /-- A gateway was heard. -/
  | seeGateway (id : String) (seen : Instant)
  /-- An update of an entity. -/
  | update (shelf : Shelf) (call : Call shelf.State)
  /-- A reading for the sink with a number. -/
  | export (outlet : Nat) (record : SensorRecord)
  /-- A command for the operators. -/
  | command (command : Command)

/-- The exports of a reading to all sinks. -/
def exportsOf (outlets : Nat) (record : SensorRecord) : List Part :=
  (List.range outlets).map fun outlet => .export outlet record

/-- The parts of what a request tells about its gateway. -/
def gatewayParts (attempts : Nat) (request : Request) : List Part :=
  match request.hints.id with
  | none => []
  | some gateway => [.seeGateway gateway request.receivedAt,
      .update .gateway ⟨EntityKind.gateway, gateway, Pipeline.statusOf request,
        some (Origin.ofTransport request.transport), attempts⟩]

/-- The parts of the work of an outcome: a reading updates its device in two ways and is exported,
and it updates the gateway that gave hints. -/
def partsOf (attempts outlets : Nat) (request : Request) : Outcome → List Part
  | .accepted record =>
    match record.entityId? with
    | none => []
    | some device =>
      let origin := some (Pipeline.originOf request)
      [.seeDevice device request.receivedAt,
        .update .device ⟨EntityKind.device, device, record, origin, attempts⟩,
        .update .value ⟨EntityKind.value, device, record, origin, attempts⟩]
        ++ exportsOf outlets record ++ gatewayParts attempts request
  | .command c => [.command c]
  | .duplicate _ | .rejected _ _ => []

section HandOut

variable {σ τ : Type}

/-- Hands out a part. -/
def Part.handOut (p : Pipeline σ τ) (now : Instant) : Part → Pipeline σ τ
  | .seeDevice id seen => p.seeDevice id seen now
  | .seeGateway id seen => p.seeGateway id seen now
  | .update shelf call =>
    let (queued, lanes) := call.queue (shelf.lanes p)
    (shelf.put p lanes p.backend).add [shelf.work queued]
  | .export outlet record => p.add [.export outlet record]
  | .command c => p.add [.command c]

/-- Hands out parts, one after the other. -/
def handOutAll (p : Pipeline σ τ) (now : Instant) (parts : List Part) : Pipeline σ τ :=
  parts.foldl (fun p part => part.handOut p now) p

theorem handOutAll_append (p : Pipeline σ τ) (now : Instant) (parts parts' : List Part) :
    handOutAll p now (parts ++ parts') = handOutAll (handOutAll p now parts) now parts' :=
  List.foldl_append

theorem handOutAll_exports (p : Pipeline σ τ) (now : Instant) (record : SensorRecord) :
    handOutAll p now (exportsOf p.outlets.length record) = p.exportAll record := by
  -- The numbers of the sinks are generalized, as the pipeline changes with every one of them.
  have hadd (numbers : List Nat) (p : Pipeline σ τ) :
      handOutAll p now (numbers.map fun outlet => .export outlet record)
        = p.add (numbers.map fun outlet => .export outlet record) := by
    induction numbers generalizing p with
    | nil =>
      rw [List.map_nil, List.map_nil, Pipeline.add, List.append_nil, handOutAll, List.foldl_nil]
    | cons number numbers ih =>
      rw [List.map_cons, List.map_cons, handOutAll, List.foldl_cons, ← handOutAll, ih, Part.handOut,
        Pipeline.add, Pipeline.add, Pipeline.add, List.append_assoc, List.singleton_append]
  exact hadd (List.range p.outlets.length) p

/-- The work of an outcome is handed out in its parts. -/
theorem dispatch_eq (p : Pipeline σ τ) (request : Request) (outcome : Outcome) (now : Instant) :
    p.dispatch request outcome now
      = handOutAll p now (partsOf p.attempts p.outlets.length request outcome) := by
  cases outcome with
  | accepted record =>
    rw [Pipeline.dispatch, Pipeline.accept, partsOf]
    cases record.entityId? with
    | none => rfl
    | some device =>
      dsimp only
      -- What comes before the exports changes neither the sinks nor the number of attempts, which
      -- the parts name as they are at the start.
      generalize hupdated : ((p.seeDevice device request.receivedAt now).updateDevice device record
        (Pipeline.originOf request)).updateValue device record (Pipeline.originOf request) = updated
      have hattempts : updated.attempts = p.attempts := by
        subst hupdated
        rfl
      have houtlets : updated.outlets = p.outlets := by
        subst hupdated
        rfl
      have hexported : (updated.exportAll record).attempts = p.attempts := hattempts
      rw [handOutAll_append, handOutAll_append]
      -- The first three parts are the sighting and the two updates of the device.
      change _ = handOutAll (handOutAll (((p.seeDevice device request.receivedAt now).updateDevice
        device record (Pipeline.originOf request)).updateValue device record
          (Pipeline.originOf request)) now _) now _
      rw [hupdated, ← houtlets, handOutAll_exports, ← hexported, gatewayParts]
      cases request.hints.id <;> rfl
  | _ => rfl

theorem Part.handOut_frame (part : Part) (p : Pipeline σ τ) (now : Instant) :
    (part.handOut p now).attempts = p.attempts ∧ (part.handOut p now).outlets = p.outlets := by
  cases part with
  | update shelf call => exact ⟨shelf.attempts_put .., shelf.outlets_put ..⟩
  | _ => exact ⟨rfl, rfl⟩

theorem handOutAll_frame (p : Pipeline σ τ) (now : Instant) (parts : List Part) :
    (handOutAll p now parts).attempts = p.attempts
      ∧ (handOutAll p now parts).outlets = p.outlets := by
  induction parts generalizing p with
  | nil => exact ⟨rfl, rfl⟩
  | cons part parts ih =>
    obtain ⟨hattempts, houtlets⟩ := part.handOut_frame p now
    exact ⟨(ih (part.handOut p now)).1.trans hattempts, (ih (part.handOut p now)).2.trans houtlets⟩

/-- Handing out adds to what is pending and does not look at it. -/
theorem Part.handOut_pending (part : Part) (p : Pipeline σ τ) (now : Instant) :
    part.handOut p now = { part.handOut { p with pending := [] } now with
      pending := p.pending ++ (part.handOut { p with pending := [] } now).pending } := by
  -- Only what is pending is not the same on both sides, and there a list is appended to.
  cases part with
  | update shelf call => cases shelf <;> rfl
  | _ => rfl

end HandOut

/-! ## Tasks -/

/-- A piece of work that has been handed out, and how far it has come. -/
inductive Task
  /-- A text for the operators. -/
  | alert (text : String)
  /-- A command for the operators. -/
  | command (command : Command)
  /-- A reading for the sink with a number. -/
  | export (outlet : Nat) (record : SensorRecord)
  /-- An update of an entity. -/
  | update (shelf : Shelf) (job : Job shelf.State)

/-- The task of a piece of work. -/
def Work.task : Work → Task
  | .alert text => .alert text
  | .command c => .command c
  | .export outlet record => .export outlet record
  | .device queued => .update .device queued.job
  | .value queued => .update .value queued.job
  | .gateway queued => .update .gateway queued.job

namespace Task

variable {σ τ : Type} [Backend σ]

/-- Counts a call that has ended without storing its update. -/
def countEnded {α : Type} (p : Pipeline σ τ) (job : Job α) : Pipeline σ τ :=
  match job.result? with
  | some result => p.countStored result
  | none => p

/-- The next step of a task, if it has not to wait. Nothing is left of a task that has ended. -/
def next? (p : Pipeline σ τ) (now : Instant) : Task → Option (Option Task × Pipeline σ τ)
  | .alert text => ((Work.alert text).run? p now).map fun p => (none, p)
  | .command c => ((Work.command c).run? p now).map fun p => (none, p)
  | .export outlet record => ((Work.export outlet record).run? p now).map fun p => (none, p)
  | .update shelf job => do
    let (next, lanes, backend) ← job.next? (shelf.lanes p) now p.backend
    return (next.map (.update shelf), countEnded (shelf.put p lanes backend) job)

section Update

variable {shelf : Shelf} {job : Job shelf.State} {p : Pipeline σ τ} (now : Instant)

/-- A call that has ended gives its ticket back. -/
theorem next?_of_some {result : Except Store.StoreError (Store.Snapshot shelf.State)}
    (hpass : (shelf.lanes p).mayPass job.ticket = true) (h : job.result? = some result) :
    (Task.update shelf job).next? p now
      = some (none, (shelf.put p ((shelf.lanes p).giveBack job.ticket) p.backend).countStored
          result) := by
  rw [next?, Job.next?, if_pos hpass, h]
  simp only [Option.bind_eq_bind, Option.bind_some, Option.map_none, countEnded, h]
  rfl

/-- A call that has not ended takes a step on the backend. -/
theorem next?_of_none (hpass : (shelf.lanes p).mayPass job.ticket = true)
    (h : job.result? = none) :
    (Task.update shelf job).next? p now
      = some (some (.update shelf { job with phase := (job.call.step now job.phase p.backend).1 }),
          shelf.put p (shelf.lanes p) (job.call.step now job.phase p.backend).2) := by
  rw [next?, Job.next?, if_pos hpass, h]
  simp only [Option.bind_eq_bind, Option.bind_some, Option.map_some, countEnded, h]
  rfl

end Update

/-- A bound for the number of steps that a task has left. -/
def left : Task → Nat
  | .update _ job => job.phase.left + 1
  | _ => 1

end Task

/-! ## Sessions -/

/-- A pipeline with the tasks that are at work, and the outcomes of all requests so far. -/
structure Session (σ τ : Type) where
  /-- The pipeline. -/
  pipeline : Pipeline σ τ
  /-- What is still to be handed out of the latest request. -/
  due : List Part := []
  /-- The tasks at work, in the order in which they were handed out. -/
  tasks : List Task := []
  /-- The outcomes so far, each with its request. -/
  log : List (Request × Outcome) := []

namespace Session

variable {σ τ : Type}

/-- The session in which the pending work of a pipeline is that of tasks, behind all others. -/
def handedOut (p : Pipeline σ τ) (due : List Part) (tasks : List Task)
    (log : List (Request × Outcome)) : Session σ τ :=
  ⟨{ p with pending := [] }, due, tasks ++ p.pending.map Work.task, log⟩

theorem handedOut_of_pending {p : Pipeline σ τ} (h : p.pending = []) (due : List Part)
    (tasks : List Task) (log : List (Request × Outcome)) :
    handedOut p due tasks log = ⟨p, due, tasks, log⟩ := by
  obtain ⟨⟩ := p
  subst h
  rw [handedOut, List.map_nil, List.append_nil]

/-- A part is handed out to one more task, whether the work before it is pending or has tasks. -/
theorem handedOut_handOut (part : Part) (p : Pipeline σ τ) (now : Instant) (due : List Part)
    (tasks : List Task) (log : List (Request × Outcome)) :
    handedOut (part.handOut { p with pending := [] } now) due (tasks ++ p.pending.map Work.task) log
      = handedOut (part.handOut p now) due tasks log := by
  rw [part.handOut_pending p now, handedOut, handedOut, List.map_append, ← List.append_assoc]

variable [Backend σ]

/-- Some task takes its next step. -/
inductive TaskStep : Session σ τ → Session σ τ → Prop
  /-- Any task may be the one, if it has not to wait. -/
  | next {p p' : Pipeline σ τ} {due : List Part} {front back : List Task} {task : Task}
      {next : Option Task} {now : Instant} {log : List (Request × Outcome)}
      (h : task.next? p now = some (next, p')) :
      TaskStep ⟨p, due, front ++ task :: back, log⟩ ⟨p', due, front ++ next.toList ++ back, log⟩

/-- A request is processed, a part of its work is handed out, or some task takes its next step. -/
inductive Step [StampStore τ] : Session σ τ → Session σ τ → Prop
  /-- A request is processed when the work of the one before has been handed out. Time goes on from
  one of its messages to the next. -/
  | process {p : Pipeline σ τ} {tasks : List Task} {log : List (Request × Outcome)}
      {request : Request} {clock : Nat → Instant} {outcomes : List Outcome}
      {state : Normalizer.State τ}
      (h : Normalizer.processOver request clock p.state = .ok (outcomes, state)) :
      Step ⟨p, [], tasks, log⟩ ⟨{ p with state },
        outcomes.flatMap (partsOf p.attempts p.outlets.length request), tasks,
        log ++ outcomes.map fun outcome => (request, outcome)⟩
  /-- A part is handed out. -/
  | handOut {p : Pipeline σ τ} {part : Part} {due : List Part} {tasks : List Task}
      {log : List (Request × Outcome)} {now : Instant} :
      Step ⟨p, part :: due, tasks, log⟩ (handedOut (part.handOut p now) due tasks log)
  /-- Some task takes its next step. -/
  | task {s s' : Session σ τ} (h : TaskStep s s') : Step s s'

/-- All tasks have ended, and no request was handled meanwhile. -/
structure Flushed (s s' : Session σ τ) : Prop where
  /-- The tasks have taken their steps. -/
  steps : Relation.ReflTransGen TaskStep s s'
  /-- All have ended. -/
  idle : s'.tasks = []

/-! ## The end of all tasks -/

/-- A bound for the number of steps that the tasks of a session have left. -/
def left (s : Session σ τ) : Nat := (s.tasks.map Task.left).sum

omit [Backend σ] in
theorem isDone_of_result? {α : Type} {job : Job α} (h : job.result? = none) :
    job.phase.isDone = false := by
  rw [Job.result?] at h
  cases hphase : job.phase with
  | done result =>
    rw [hphase] at h
    cases h
  | _ => rfl

theorem left_lt_of_task {p p' : Pipeline σ τ} {task : Task} {next : Option Task} {now : Instant}
    (h : task.next? p now = some (next, p')) : (next.toList.map Task.left).sum < task.left := by
  cases task with
  | update shelf job =>
    simp only [Task.next?, Option.bind_eq_bind, Option.bind_eq_some_iff] at h
    obtain ⟨⟨rest, _, _⟩, hnext, ⟨⟩⟩ := h
    -- A call that has ended leaves no task, and any other one has fewer steps left.
    obtain ⟨-, ⟨-, rfl, -, -⟩ | ⟨hresult, rfl, -, -⟩⟩ := Job.next?_cases hnext
    · exact Nat.succ_pos _
    · have hdone := isDone_of_result? hresult
      exact Nat.succ_lt_succ (job.call.left_step_lt now job.phase p.backend hdone)
  | _ =>
    cases h
    exact Nat.one_pos

/-- Every step of a task brings a session nearer to the end of all tasks. -/
theorem TaskStep.left_lt {s s' : Session σ τ} (h : TaskStep s s') : s'.left < s.left := by
  obtain ⟨hnext⟩ := h
  have hlt := left_lt_of_task hnext
  simp only [left, List.map_append, List.map_cons, List.sum_append, List.sum_cons]
  omega

/-! ## Work at once -/

section AtOnce

variable {p p' : Pipeline σ τ} {due : List Part} {front back : List Task}
  {log : List (Request × Outcome)} {now : Instant}

theorem TaskStep.ends (now : Instant) {task : Task} (h : task.next? p now = some (none, p')) :
    TaskStep ⟨p, due, front ++ task :: back, log⟩ ⟨p', due, front ++ back, log⟩ := by
  have hstep : TaskStep ⟨p, due, front ++ task :: back, log⟩ ⟨p', due, front ++ [] ++ back, log⟩ :=
    .next h
  rw [List.append_nil] at hstep
  exact hstep

theorem TaskStep.continues {task task' : Task} (h : task.next? p now = some (some task', p')) :
    TaskStep ⟨p, due, front ++ task :: back, log⟩ ⟨p', due, front ++ task' :: back, log⟩ := by
  have hstep : TaskStep ⟨p, due, front ++ task :: back, log⟩
      ⟨p', due, front ++ [task'] ++ back, log⟩ := .next h
  rw [List.append_assoc] at hstep
  exact hstep

/-- All steps of a call that may pass, one after the other. -/
theorem steps_of_finish (shelf : Shelf) (queued : Queued shelf.State) (phase : Phase shelf.State)
    (hpass : (shelf.lanes p).mayPass queued.ticket = true) :
    Relation.ReflTransGen TaskStep ⟨p, due, front ++ .update shelf ⟨queued, phase⟩ :: back, log⟩
      ⟨(shelf.put p ((shelf.lanes p).giveBack queued.ticket)
          (queued.call.finish now phase p.backend).2).countStored
          (queued.call.finish now phase p.backend).1, due, front ++ back, log⟩ := by
  -- A step on the backend does not change the lanes, so the call may pass again.
  have hpasses (backend : σ) :
      (shelf.lanes (shelf.put p (shelf.lanes p) backend)).mayPass queued.ticket = true := by
    rw [shelf.lanes_put]
    exact hpass
  have hnext {phase' : Phase shelf.State} (backend : σ)
      (hresult : (⟨queued, phase'⟩ : Job shelf.State).result? = none) :
      (Task.update shelf ⟨queued, phase'⟩).next? (shelf.put p (shelf.lanes p) backend) now
        = some (some (.update shelf ⟨queued, (queued.call.step now phase' backend).1⟩),
          shelf.put p (shelf.lanes p) (queued.call.step now phase' backend).2) := by
    rw [Task.next?_of_none now (hpasses backend) hresult, shelf.lanes_put, shelf.backend_put,
      shelf.put_put]
    rfl
  have hworks := queued.call.finish_preserves now (P := fun phase' backend =>
    Relation.ReflTransGen TaskStep ⟨p, due, front ++ .update shelf ⟨queued, phase⟩ :: back, log⟩
      ⟨shelf.put p (shelf.lanes p) backend, due, front ++ .update shelf ⟨queued, phase'⟩ :: back,
        log⟩) ?step phase p.backend ?start
  case start => rw [shelf.put_self]
  case step =>
    intro phase' backend h
    cases phase' with
    | done result => exact h
    | _ => exact h.tail (.continues (hnext backend rfl))
  have hends (result : Except Store.StoreError (Store.Snapshot shelf.State)) (backend : σ) :
      (Task.update shelf ⟨queued, .done result⟩).next? (shelf.put p (shelf.lanes p) backend) now
        = some (none, (shelf.put p ((shelf.lanes p).giveBack queued.ticket) backend).countStored
          result) := by
    rw [Task.next?_of_some now (hpasses backend) rfl, shelf.lanes_put, shelf.backend_put,
      shelf.put_put]
    rfl
  exact hworks.tail (.ends now (hends _ _))

theorem steps_of_queued (shelf : Shelf) {queued : Queued shelf.State}
    (h : ((queued.run? (shelf.lanes p) now p.backend).bind fun (result, lanes, backend) =>
      some ((shelf.put p lanes backend).countStored result)) = some p') :
    Relation.ReflTransGen TaskStep ⟨p, due, front ++ .update shelf queued.job :: back, log⟩
      ⟨p', due, front ++ back, log⟩ := by
  rw [Queued.run?] at h
  -- Work that has to wait is not done at once.
  split at h
  · rename_i hpass
    cases h
    exact steps_of_finish shelf queued queued.call.start hpass
  · cases h

/-- Work that is done at once is done in steps. -/
theorem steps_of_run? {work : Work} (h : work.run? p now = some p') :
    Relation.ReflTransGen TaskStep ⟨p, due, front ++ work.task :: back, log⟩
      ⟨p', due, front ++ back, log⟩ := by
  cases work with
  | device queued => exact steps_of_queued .device h
  | value queued => exact steps_of_queued .value h
  | gateway queued => exact steps_of_queued .gateway h
  | _ => exact .single (.ends now (by rw [Work.task, Task.next?, h]; rfl))

end AtOnce

section Handle

omit [Backend σ] in
/-- The work of all outcomes is handed out in its parts. -/
theorem dispatch_foldl_eq (request : Request) (outcomes : List Outcome) (p : Pipeline σ τ)
    (now : Instant) :
    outcomes.foldl (fun p outcome => p.dispatch request outcome now) p
      = handOutAll p now (outcomes.flatMap (partsOf p.attempts p.outlets.length request)) := by
  induction outcomes generalizing p with
  | nil => rfl
  | cons outcome outcomes ih =>
    -- The parts of later outcomes are those for the pipeline at the start.
    have hframe := handOutAll_frame p now (partsOf p.attempts p.outlets.length request outcome)
    rw [← dispatch_eq] at hframe
    rw [List.foldl_cons, ih, List.flatMap_cons, handOutAll_append, ← dispatch_eq, hframe.1,
      hframe.2]

variable [StampStore τ] {p : Pipeline σ τ} {tasks : List Task} {log : List (Request × Outcome)}
  {now : Instant}

/-- All parts are handed out, one after the other. -/
theorem steps_of_handOutAll (parts : List Part) :
    Relation.ReflTransGen Step (handedOut p parts tasks log)
      (handedOut (handOutAll p now parts) [] tasks log) := by
  induction parts generalizing p with
  | nil => exact .refl
  | cons part parts ih =>
    have hstep : Step (handedOut p (part :: parts) tasks log)
        (handedOut (part.handOut p now) parts tasks log) := by
      rw [← handedOut_handOut]
      exact .handOut
    exact .head hstep ih

/-- A request that is handled at once is handled in steps. -/
theorem steps_of_handle {p' : Pipeline σ τ} {request : Request} {outcomes : List Outcome}
    (hpending : p.pending = []) (h : p.handle request now = .ok (outcomes, p')) :
    Relation.ReflTransGen Step ⟨p, [], tasks, log⟩
      (handedOut p' [] tasks (log ++ outcomes.map fun outcome => (request, outcome))) := by
  rw [Pipeline.handle] at h
  cases hprocess : Normalizer.process request now p.state with
  | error breakdown =>
    rw [hprocess] at h
    cases h
  | ok result =>
    obtain ⟨results, state⟩ := result
    rw [hprocess] at h
    cases h
    rw [dispatch_foldl_eq]
    -- All messages are processed at the same time here.
    rw [Normalizer.process_eq] at hprocess
    refine .head (.process hprocess) ?_
    -- The pipeline after the processing has nothing pending, as before.
    have hstart : { p with state }.pending = [] := hpending
    rw [← handedOut_of_pending hstart]
    exact steps_of_handOutAll _

end Handle

end Session

end FieldTelemetry.Pipeline
