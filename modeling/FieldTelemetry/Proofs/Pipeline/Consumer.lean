import FieldTelemetry.Proofs.Pipeline.Accounting

/-!
# The consumer on its own

What a consumer does when it handles requests at once, and all work when the last one has been
handled, is what it does among producers and tasks when these have their turns at the right times.

## Main definitions

* `Service.Shows`: a service whose consumer is between two requests

## Main results

* `Service.exists_run_step`: a step of a consumer is a run of a service
* `Service.exists_run_steps`: and so are several steps
-/

namespace FieldTelemetry.Pipeline.Service

open Intake (Request Taking Traffic)
open Stamp (StampStore)
open Store (Backend)
open Time (Instant)

variable {σ τ : Type} [Backend σ] [StampStore τ] {s t : Service σ τ}

/-! ## Runs of tasks -/

@[simp]
theorem run_cons (s : Service σ τ) (turn : Turn) (turns : List Turn) :
    s.run (turn :: turns) = (s.turn turn).run turns := rfl

theorem run_append (s : Service σ τ) (turns turns' : List Turn) :
    s.run (turns ++ turns') = (s.run turns).run turns' := List.foldl_append

/-- Tasks take their steps in their turns. -/
theorem exists_run_tasks {session : Session σ τ}
    (h : Relation.ReflTransGen Session.TaskStep s.session session) :
    ∃ turns, s.run turns = { s with session } := by
  induction h with
  | refl => exact ⟨[], rfl⟩
  | tail _ hstep ih =>
    obtain ⟨turns, hrun⟩ := ih
    obtain ⟨position, now, hadvance⟩ := hstep.exists_advance
    refine ⟨turns ++ [.task position now], ?_⟩
    rw [run_concat, hrun, turn, hadvance]

omit [StampStore τ] in
/-- The oldest work is done at once. -/
theorem exists_run?_of_lined {p : Pipeline σ τ} {work : Work} {works : List Work}
    {log : List (Request × Outcome)}
    (h : Session.Lined ⟨p, [], (work :: works).map Work.task, log⟩) (now : Instant) :
    ∃ p', work.run? p now = some p' := by
  have hpass (shelf : Shelf) (queued : Store.Queued shelf.State)
      (htask : work.task = .update shelf queued.job) :
      (shelf.lanes p).mayPass queued.ticket = true := by
    have horderly := h.orderly shelf
    dsimp only at horderly
    rw [List.map_cons, htask, ← List.nil_append (Task.update shelf queued.job :: _),
      ticketsOf_middle] at horderly
    exact horderly.mayPass_iff.mpr rfl
  have hqueued (shelf : Shelf) (queued : Store.Queued shelf.State)
      (htask : work.task = .update shelf queued.job) :
      ∃ result, queued.run? (shelf.lanes p) now p.backend = some result := by
    rw [Store.Queued.run?, if_pos (hpass shelf queued htask)]
    exact ⟨_, rfl⟩
  cases work with
  | device queued =>
    obtain ⟨result, hresult⟩ := hqueued .device queued rfl
    rw [Shelf.lanes] at hresult
    rw [Work.run?, hresult]
    exact ⟨_, rfl⟩
  | value queued =>
    obtain ⟨result, hresult⟩ := hqueued .value queued rfl
    rw [Shelf.lanes] at hresult
    rw [Work.run?, hresult]
    exact ⟨_, rfl⟩
  | gateway queued =>
    obtain ⟨result, hresult⟩ := hqueued .gateway queued rfl
    rw [Shelf.lanes] at hresult
    rw [Work.run?, hresult]
    exact ⟨_, rfl⟩
  | _ => exact ⟨_, rfl⟩

/-- All work is done at once, the oldest first. -/
theorem exists_run_doAll (now : Instant) (works : List Work) {p : Pipeline σ τ}
    {log : List (Request × Outcome)}
    (hlined : Session.Lined ⟨p, [], works.map Work.task, log⟩)
    (hsession : s.session = ⟨p, [], works.map Work.task, log⟩) :
    ∃ turns, s.run turns = { s with session := ⟨Pipeline.doAll now works p, [], [], log⟩ }
      ∧ (Pipeline.doAll now works p).pending = [] := by
  induction works generalizing s p with
  | nil =>
    refine ⟨[], ?_, hlined.pending⟩
    rw [Pipeline.doAll, ← List.map_nil (f := Work.task), ← hsession]
    rfl
  | cons work works ih =>
    obtain ⟨p', hwork⟩ := exists_run?_of_lined hlined now
    have hsteps : Relation.ReflTransGen Session.TaskStep
        (⟨p, [], [] ++ work.task :: works.map Work.task, log⟩ : Session σ τ)
        ⟨p', [], [] ++ works.map Work.task, log⟩ := Session.steps_of_run? hwork
    have hlined' := hlined.run (hsteps.lift id fun _ _ hstep => .task hstep)
    obtain ⟨turns, hrun⟩ := exists_run_tasks (s := s) (hsession ▸ hsteps)
    obtain ⟨turns', hrun', hpending⟩ := ih (s := s.run turns) hlined' (by rw [hrun]; rfl)
    refine ⟨turns ++ turns', ?_, ?_⟩
    · rw [run_append, hrun', hrun, Pipeline.doAll, hwork, Option.getD_some]
    · rw [Pipeline.doAll, hwork, Option.getD_some]
      exact hpending

/-! ## A consumer between two requests -/

/-- The consumer of a service is between two requests, and no task has begun. -/
structure Shows (s : Service σ τ) (c : Consumer σ τ) (stop : Bool) : Prop where
  /-- It has no request at hand, and nothing left to hand out. -/
  free : s.Free
  /-- They are in the same stage. -/
  stage : s.stage = c.stage
  /-- They have the same queue. -/
  queue : s.traffic.queue = c.queue
  /-- The service has been told to stop, or not. -/
  told : s.isTold = stop
  /-- Nothing is due, and no task is at work. -/
  session : s.session = Session.handedOut c.pipeline [] [] s.session.log

theorem turn_consumer (hup : s.isDown = false) (clock : Nat → Instant) :
    s.turn (.consumer clock) = s.consume clock := by
  rw [turn, if_neg (by rw [hup]; exact Bool.false_ne_true)]

/-- All parts are handed out, one after the other. -/
theorem exists_run_handOutAll (now : Instant) (parts : List Part) {p : Pipeline σ τ}
    {tasks : List Task} {log : List (Request × Outcome)} (hup : s.isDown = false)
    (hheld : s.held = none) (hsession : s.session = Session.handedOut p parts tasks log) :
    ∃ turns out, s.run turns
      = { s with session := Session.handedOut (handOutAll p now parts) [] tasks log, out } := by
  induction parts generalizing s p with
  | nil =>
    refine ⟨[], s.out, ?_⟩
    rw [handOutAll, List.foldl_nil, ← hsession]
    rfl
  | cons part parts ih =>
    have hconsume : s.consume (fun _ => now) = s.handOut part parts now := by
      have hdue : s.session.due = part :: parts := by
        rw [hsession]
        rfl
      simp only [consume, hheld, hdue]
    have hnext : (s.handOut part parts now).session
        = Session.handedOut (part.handOut p now) parts tasks log := by
      rw [← Session.handedOut_handOut, handOut, hsession]
      rfl
    obtain ⟨turns, out, hrun⟩ := ih (s := s.handOut part parts now) hup hheld hnext
    refine ⟨(.consumer fun _ => now) :: turns, out, ?_⟩
    rw [run_cons, turn_consumer hup, hconsume, hrun]
    rfl

section Receive

variable {request : Request} {rest : List Request}

theorem turn_waiting (hfree : s.Free) (htakes : s.Takes)
    (hwaiting : s.traffic.queue.waiting = request :: rest) (clock : Nat → Instant) :
    s.turn (.consumer clock) = { s with traffic :=
      { s.traffic with queue := s.traffic.queue.pop rest, taking := .took request } } := by
  have hconsume : s.traffic.consume
      = { s.traffic with queue := s.traffic.queue.pop rest, taking := .took request } := by
    rw [Traffic.consume, hfree.idle, hwaiting]
  have hreceive : s.receive = { s with traffic := s.traffic.consume } := by
    obtain ⟨hstage, htold⟩ | hstage := htakes
    · simp only [receive, hstage, hwaiting, htold, Bool.false_eq_true, if_false]
    · simp only [receive, hstage, hwaiting]
  rw [turn_consumer hfree.up, ← hconsume, ← hreceive]
  simp only [consume, hfree.held, hfree.due, hfree.idle]

theorem turn_took (hup : s.isDown = false) (hheld : s.held = none) (hdue : s.session.due = [])
    (queue : Intake.Queue) (request : Request) (clock : Nat → Instant) :
    turn { s with traffic := { s.traffic with queue, taking := .took request } } (.consumer clock)
      = { s with traffic :=
        { s.traffic with queue := queue.lower, taking := .lowered request } } := by
  rw [turn, if_neg (by rw [hup]; exact Bool.false_ne_true)]
  simp only [consume, hheld, hdue, Traffic.consume]

theorem turn_lowered (hup : s.isDown = false) (hheld : s.held = none) (hdue : s.session.due = [])
    (queue : Intake.Queue) (request : Request) (clock : Nat → Instant) :
    turn { s with traffic := { s.traffic with queue, taking := .lowered request } }
        (.consumer clock)
      = { s with
        held := some request
        traffic :=
          { s.traffic with
            queue := queue.countOut
            taking := .idle
            handedOut := s.traffic.handedOut ++ [request] } } := by
  rw [turn, if_neg (by rw [hup]; exact Bool.false_ne_true)]
  simp only [consume, hheld, hdue, Traffic.consume]

/-- The consumer receives the next request in three steps. -/
theorem run_receive (hfree : s.Free) (htakes : s.Takes)
    (hwaiting : s.traffic.queue.waiting = request :: rest) (clock : Nat → Instant) :
    s.run (List.replicate 3 (.consumer clock)) = { s with
      held := some request
      traffic :=
        { s.traffic with
          queue := s.traffic.queue.receive.2
          taking := .idle
          handedOut := s.traffic.handedOut ++ [request] } } := by
  rw [List.replicate_succ, run_cons, turn_waiting hfree htakes hwaiting, List.replicate_succ,
    run_cons, turn_took hfree.up hfree.held hfree.due, List.replicate_one, run_cons,
    turn_lowered hfree.up hfree.held hfree.due, Intake.Queue.receive_of_waiting hwaiting]
  rfl

end Receive

/-! ## Steps of a consumer -/

section Steps

variable {c : Consumer σ τ} {stop : Bool}

/-- The next request is received, processed and its work handed out, or it breaks the consumer
down. -/
theorem exists_run_request {request : Request} {rest : List Request} (hshows : s.Shows c stop)
    (htakes : s.Takes) (hwaiting : c.queue.waiting = request :: rest) (now : Instant) :
    ∃ turns, match c.pipeline.handle request now with
      | .ok (_, p) => (s.run turns).Shows { c with queue := c.queue.receive.2, pipeline := p } stop
      | .error _ => (s.run turns).isDown = true := by
  obtain ⟨hfree, hstage, hqueue, htold, hsession⟩ := hshows
  have hreceived := run_receive hfree htakes (hqueue ▸ hwaiting) fun _ => now
  rw [hqueue] at hreceived
  generalize hr : ({ s with
    held := some request
    traffic :=
      { s.traffic with
        queue := c.queue.receive.2
        taking := .idle
        handedOut := s.traffic.handedOut ++ [request] } } : Service σ τ) = r at hreceived
  have hstate : r.session = Session.handedOut c.pipeline [] [] s.session.log := by
    rw [← hr]
    exact hsession
  have hprocess : r.turn (.consumer fun _ => now) = r.process request fun _ => now := by
    rw [turn_consumer (by rw [← hr]; exact hfree.up), ← hr]
    rfl
  rw [Pipeline.handle, Normalizer.process_eq]
  cases hresult : Normalizer.processOver request (fun _ => now) c.pipeline.state with
  | error breakdown =>
    refine ⟨List.replicate 3 (.consumer fun _ => now) ++ [.consumer fun _ => now], ?_⟩
    have hdown : r.process request (fun _ => now) = r.breakDown := by
      rw [process, hstate]
      simp only [Session.handedOut, hresult]
    change ((s.run _).isDown = true)
    rw [run_concat, hreceived, hprocess, hdown]
    rfl
  | ok result =>
    obtain ⟨outcomes, state⟩ := result
    have hanswer : r.process request (fun _ => now) = r.answer request outcomes state := by
      rw [process, hstate]
      simp only [Session.handedOut, hresult]
    have hparts : (r.answer request outcomes state).session
        = Session.handedOut { c.pipeline with state }
          (outcomes.flatMap (partsOf c.pipeline.attempts c.pipeline.outlets.length request)) []
          (s.session.log ++ outcomes.map fun outcome => (request, outcome)) := by
      rw [answer, hstate]
      rfl
    obtain ⟨turns, out, hrun⟩ := exists_run_handOutAll now _
      (s := r.answer request outcomes state) (by rw [← hr]; exact hfree.up) rfl hparts
    refine ⟨List.replicate 3 (.consumer fun _ => now) ++ (.consumer fun _ => now) :: turns, ?_⟩
    change (s.run _).Shows _ stop
    rw [run_append, hreceived, run_cons, hprocess, hanswer, hrun, Session.dispatch_foldl_eq, ← hr]
    exact ⟨⟨hfree.up, rfl, rfl, rfl⟩, hstage, rfl, htold, rfl⟩

theorem exists_run_receive {request : Request} {rest : List Request} (hshows : s.Shows c stop)
    (htakes : s.Takes) (hwaiting : c.queue.waiting = request :: rest) (now : Instant)
    (ended : Intake.Queue → Consumer σ τ) :
    ∃ turns, match c.receive now ended with
      | .ok c' => (s.run turns).Shows c' stop
      | .error _ => (s.run turns).isDown = true := by
  obtain ⟨turns, hrun⟩ := exists_run_request hshows htakes hwaiting now
  refine ⟨turns, ?_⟩
  rw [Consumer.receive, Intake.Queue.receive_of_waiting hwaiting]
  rw [Intake.Queue.receive_of_waiting hwaiting] at hrun
  dsimp only
  cases hhandle : c.pipeline.handle request now with
  | error breakdown =>
    rw [hhandle] at hrun
    exact hrun
  | ok result =>
    rw [hhandle] at hrun
    exact hrun

omit [Backend σ] in
theorem receive_of_nil (hwaiting : c.queue.waiting = []) (now : Instant)
    (ended : Intake.Queue → Consumer σ τ) :
    c.receive now ended
      = .ok (if c.queue.isClosed || c.queue.isDeserted then ended c.queue else c) := by
  rw [Consumer.receive, Intake.Queue.receive, hwaiting]
  dsimp only
  cases c.queue.isClosed || c.queue.isDeserted <;> rfl

/-- The consumer leaves the loop. -/
theorem shows_close (hshows : s.Shows c stop) (hstage : c.stage = .running)
    (hlast : stop = true ∨ c.queue.isDeserted = true ∧ c.queue.waiting = []) (now : Instant) :
    (s.run [.consumer fun _ => now]).Shows { c with stage := .draining, queue := c.queue.close }
      stop := by
  obtain ⟨hfree, hstage', hqueue, htold, hsession⟩ := hshows
  have hclose : s.turn (.consumer fun _ => now) = s.close := by
    have hreceive : s.consume (fun _ => now) = s.receive := by
      simp only [consume, hfree.held, hfree.due, hfree.idle]
    rw [turn_consumer hfree.up, hreceive, receive]
    rw [← htold, ← hqueue] at hlast
    obtain hlast | ⟨hleft, hwaiting⟩ := hlast
    · cases hwaiting : s.traffic.queue.waiting <;> simp [hstage', hstage, hlast]
    · simp [hstage', hstage, hwaiting, hleft]
  rw [run_cons, hclose]
  refine ⟨⟨hfree.up, hfree.held, hfree.due, hfree.idle⟩, rfl, ?_, htold, hsession⟩
  exact congrArg Intake.Queue.close hqueue

/-- All work is done before the end. -/
theorem exists_run_settle (hshows : s.Shows c stop) (hstage : c.stage = .draining)
    (hwaiting : c.queue.waiting = []) (hlined : s.session.Lined) (now : Instant) :
    ∃ turns, (s.run turns).Shows { c with stage := .ended, pipeline := c.pipeline.settle now }
      stop := by
  obtain ⟨hfree, hstage', hqueue, htold, hsession⟩ := hshows
  have hworks : s.session = ⟨{ c.pipeline with pending := [] }, [],
      c.pipeline.pending.map Work.task, s.session.log⟩ := hsession
  obtain ⟨turns, hrun, hpending⟩ := exists_run_doAll now c.pipeline.pending
    (hworks ▸ hlined) hworks
  refine ⟨turns ++ [.consumer fun _ => now], ?_⟩
  have hended (p : Pipeline σ τ) : turn { s with session := ⟨p, [], [], s.session.log⟩ }
      (.consumer fun _ => now)
        = { s with session := ⟨p, [], [], s.session.log⟩, stage := .ended } := by
    rw [← hqueue] at hwaiting
    rw [turn_consumer (s := { s with session := ⟨p, [], [], s.session.log⟩ }) hfree.up]
    simp [consume, receive, hfree.held, hfree.idle, hstage', hstage, hwaiting]
  rw [run_concat, hrun, ← Pipeline.settle, hended]
  refine ⟨⟨hfree.up, hfree.held, rfl, hfree.idle⟩, rfl, hqueue, htold, ?_⟩
  exact (Session.handedOut_of_pending hpending ..).symm

theorem exists_run_running (hshows : s.Shows c stop) (hstage : c.stage = .running)
    (hopen : c.queue.isClosed = false) (now : Instant) :
    ∃ turns, match c.step stop now with
      | .ok c' => (s.run turns).Shows c' stop
      | .error _ => (s.run turns).isDown = true := by
  cases stop with
  | true =>
    have hstep : c.step true now = .ok { c with stage := .draining, queue := c.queue.close } := by
      rw [Consumer.step, hstage]
      rfl
    rw [hstep]
    exact ⟨_, shows_close hshows hstage (.inl rfl) now⟩
  | false =>
    have hstep : c.step false now = c.receive now fun queue =>
        { c with stage := .draining, queue := queue.close } := by
      rw [Consumer.step, hstage]
      rfl
    rw [hstep]
    cases hwaiting : c.queue.waiting with
    | cons request rest =>
      have htakes : s.Takes := .inl ⟨hshows.stage.trans hstage, hshows.told⟩
      exact exists_run_receive hshows htakes hwaiting now _
    | nil =>
      rw [receive_of_nil hwaiting, hopen, Bool.false_or]
      cases hdeserted : c.queue.isDeserted with
      | true => exact ⟨_, shows_close hshows hstage (.inr ⟨hdeserted, hwaiting⟩) now⟩
      | false => exact ⟨[], hshows⟩

theorem exists_run_draining (hshows : s.Shows c stop) (hstage : c.stage = .draining)
    (hclosed : c.queue.isClosed = true) (hlined : s.session.Lined) (now : Instant) :
    ∃ turns, match c.step stop now with
      | .ok c' => (s.run turns).Shows c' stop
      | .error _ => (s.run turns).isDown = true := by
  have hstep : c.step stop now = c.receive now fun queue =>
      { c with stage := .ended, queue, pipeline := c.pipeline.settle now } := by
    rw [Consumer.step, hstage]
  rw [hstep]
  cases hwaiting : c.queue.waiting with
  | cons request rest =>
    exact exists_run_receive hshows (.inr (hshows.stage.trans hstage)) hwaiting now _
  | nil =>
    rw [receive_of_nil hwaiting, hclosed, Bool.true_or]
    exact exists_run_settle hshows hstage hwaiting hlined now

/-- Each step of a consumer is a run of a service that shows it, and so is its breakdown. -/
theorem exists_run_step (hshows : s.Shows c stop) (hstaged : s.Staged) (hlined : s.session.Lined)
    (now : Instant) :
    ∃ turns, match c.step stop now with
      | .ok c' => (s.run turns).Shows c' stop
      | .error _ => (s.run turns).isDown = true := by
  have hclosed : c.queue.isClosed = true ↔ c.stage ≠ .running := by
    rw [← hshows.queue, hstaged.closed_iff, hshows.free.up, hshows.stage]
    simp
  cases hstage : c.stage with
  | running =>
    have hopen : c.queue.isClosed = false := by
      rw [← Bool.not_eq_true, hclosed, hstage]
      exact fun h => h rfl
    exact exists_run_running hshows hstage hopen now
  | draining =>
    have hshut : c.queue.isClosed = true := by
      rw [hclosed, hstage]
      nofun
    exact exists_run_draining hshows hstage hshut hlined now
  | ended =>
    have hstep : c.step stop now = .ok c := by
      rw [Consumer.step, hstage]
    rw [hstep]
    exact ⟨[], hshows⟩

/-- Several steps of a consumer are a run of a service that shows it, from any point of a run on. -/
theorem exists_run_steps {capacity : Nat} {requests : List Request} {initial : Pipeline σ τ}
    (hinitial : Session.Lined (⟨initial, [], [], []⟩ : Session σ τ)) {turns : List Turn}
    (hshows : ((start capacity requests initial).run turns).Shows c stop) (now : Instant)
    (n : Nat) :
    ∃ more, match c.steps stop now n with
      | .ok c' => ((start capacity requests initial).run (turns ++ more)).Shows c' stop
      | .error _ => ((start capacity requests initial).run (turns ++ more)).isDown = true := by
  induction n generalizing c turns with
  | zero =>
    refine ⟨[], ?_⟩
    rw [List.append_nil]
    exact hshows
  | succ n ih =>
    obtain ⟨hstaged, -, hworked⟩ := kept_run capacity requests initial turns
    obtain ⟨more, hstep⟩ := exists_run_step hshows hstaged (hinitial.run hworked.steps) now
    rw [← run_append] at hstep
    rw [Consumer.steps]
    cases hnext : c.step stop now with
    | error breakdown =>
      rw [hnext] at hstep
      exact ⟨more, hstep⟩
    | ok c' =>
      rw [hnext] at hstep
      obtain ⟨rest, hrest⟩ := ih hstep
      refine ⟨more ++ rest, ?_⟩
      rw [← List.append_assoc]
      exact hrest

end Steps

end FieldTelemetry.Pipeline.Service
