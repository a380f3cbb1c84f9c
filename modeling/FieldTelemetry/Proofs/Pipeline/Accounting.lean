import FieldTelemetry.Proofs.Pipeline.Service

/-!
# What has become of requests

Every request that has come into the queue has been processed, is at hand, or is in the queue, in
the order in which the requests came in, as long as no request has broken the consumer down. The
work of all outcomes has been handed out or is due.

## Main definitions

* `Service.Staged`: what the consumer is about fits to how far it has come
* `Service.Recorded`: where the requests are that came into the queue
* `Service.Worked`: what has been handed out
* `Service.Kept`: all of these together

## Main results

* `Service.kept_run`: they hold after any turns
-/

namespace FieldTelemetry.Pipeline.Service

open Intake (Request Taking Traffic)
open Stamp (StampStore)
open Store (Backend)
open Time (Instant)

variable {σ τ : Type} [Backend σ] [StampStore τ] {s t : Service σ τ} {requests : List Request}
  {initial : Pipeline σ τ}

/-! ## What the consumer is about -/

/-- What the consumer is about fits to how far it has come. -/
structure Staged (s : Service σ τ) : Prop where
  /-- The queue is open as long as the consumer runs. -/
  closed_iff : s.traffic.queue.isClosed = true ↔ s.stage ≠ .running ∨ s.isDown = true
  /-- A request that has been received is processed before anything else is done. -/
  held : ∀ request, s.held = some request → s.session.due = [] ∧ s.traffic.taking = .idle
  /-- Then its work is handed out. -/
  due : s.session.due ≠ [] → s.traffic.taking = .idle
  /-- Nothing is left to do at the end. -/
  ended : s.stage = .ended → s.Free ∧ s.traffic.queue.waiting = [] ∧ s.session.tasks = []
  /-- The request at hand has broken the consumer down, and with it what the normalizer knows. Tasks
  may have counted failures since then. -/
  down : s.isDown = true → ∃ request clock tally, s.held = some request
    ∧ Normalizer.processOver request clock { s.session.pipeline.state with tally }
      = .error .outOfCalendar

namespace Staged

omit [Backend σ] in
theorem start (capacity : Nat) (requests : List Request) (p : Pipeline σ τ) :
    (start capacity requests p).Staged where
  closed_iff := by simp [Service.start, Traffic.start, Intake.Queue.new]
  held _ h := nomatch h
  due h := absurd rfl h
  ended h := nomatch h
  down h := nomatch h

omit [Backend σ] in
theorem stage_ne_ended_of_held (h : s.Staged) {request : Request} (hheld : s.held = some request) :
    s.stage ≠ .ended := by
  intro hended
  have hnone := (h.ended hended).1.held
  rw [hheld] at hnone
  cases hnone

omit [Backend σ] in
theorem stage_ne_ended_of_taking (h : s.Staged) (htaking : s.traffic.taking ≠ .idle) :
    s.stage ≠ .ended :=
  fun hended => htaking (h.ended hended).1.idle

omit [Backend σ] in
/-- A consumer that is gone has a request at hand. -/
theorem isDown_ne_true_of_held (h : s.Staged) (hheld : s.held = none) : s.isDown ≠ true := by
  intro hdown
  obtain ⟨request, -, -, hsome, -⟩ := h.down hdown
  rw [hheld] at hsome
  cases hsome

/-- Tasks change what the normalizer knows only by counting failures. -/
theorem advanced (h : s.Staged) {session : Session σ τ}
    (hstep : Session.TaskStep s.session session) :
    Staged { s with session } := by
  obtain ⟨hdue, -⟩ := hstep.frame
  refine ⟨h.closed_iff, ?_, ?_, ?_, ?_⟩
  · rw [hdue]
    exact h.held
  · rw [hdue]
    exact h.due
  · intro hended
    -- There is no task that could have taken a step.
    exact absurd (h.ended hended).2.2 hstep.tasks_ne_nil
  · intro hdown
    obtain ⟨request, clock, tally, hheld, hprocess⟩ := h.down hdown
    obtain ⟨tally', hstate⟩ := hstep.exists_tally
    refine ⟨request, clock, tally, hheld, ?_⟩
    dsimp only
    rw [hstate]
    exact hprocess

theorem works (h : s.Staged) (hworks : s.Works t) : t.Staged := by
  have hnone {service : Service σ τ} (hheld : service.held = none) (request : Request)
      (hsome : service.held = some request) :
      service.session.due = [] ∧ service.traffic.taking = .idle := by
    rw [hheld] at hsome
    cases hsome
  cases hworks with
  | took hfree htakes hwaiting =>
    exact ⟨h.closed_iff, hnone hfree.held, fun hdue => absurd hfree.due hdue,
      fun hended => absurd hended htakes.stage_ne_ended, h.down⟩
  | lowered hheld hdue htaking =>
    have hbusy : s.traffic.taking ≠ .idle := by
      rw [htaking]
      exact nofun
    exact ⟨h.closed_iff, hnone hheld, fun hmore => absurd hdue hmore,
      fun hended => absurd hended (h.stage_ne_ended_of_taking hbusy), h.down⟩
  | received hheld hdue htaking =>
    have hbusy : s.traffic.taking ≠ .idle := by
      rw [htaking]
      exact nofun
    exact ⟨h.closed_iff, fun _ _ => ⟨hdue, rfl⟩, fun _ => rfl,
      fun hended => absurd hended (h.stage_ne_ended_of_taking hbusy),
      fun hdown => absurd hdown (h.isDown_ne_true_of_held hheld)⟩
  | answered hheld hup hprocess =>
    refine ⟨h.closed_iff, hnone rfl, fun _ => (h.held _ hheld).2,
      fun hended => absurd hended (h.stage_ne_ended_of_held hheld), ?_⟩
    intro hdown
    have hdown' : s.isDown = true := hdown
    rw [hup] at hdown'
    cases hdown'
  | @brokeDown request clock breakdown hheld hup hprocess =>
    refine ⟨iff_of_true rfl (.inr rfl), h.held, h.due,
      fun hended => absurd hended (h.stage_ne_ended_of_held hheld), ?_⟩
    intro
    cases breakdown
    exact ⟨request, clock, s.session.pipeline.state.tally, hheld, hprocess⟩
  | handedOut hheld hdue =>
    have hbusy : s.session.due ≠ [] := by
      rw [hdue]
      exact List.cons_ne_nil _ _
    exact ⟨h.closed_iff, hnone hheld, fun _ => h.due hbusy,
      fun hended => absurd (h.ended hended).1.due hbusy,
      fun hdown => absurd hdown (h.isDown_ne_true_of_held hheld)⟩
  | closed hfree hstage hlast =>
    exact ⟨iff_of_true rfl (.inl nofun), h.held, h.due, nofun, h.down⟩
  | ended hfree hstage hwaiting htasks =>
    have hclosed : s.traffic.queue.isClosed = true := by
      rw [h.closed_iff, hstage]
      exact .inl nofun
    have hfree' : Free { s with stage := .ended } :=
      ⟨hfree.up, hfree.held, hfree.due, hfree.idle⟩
    exact ⟨iff_of_true hclosed (.inl nofun), h.held, h.due, fun _ => ⟨hfree', hwaiting, htasks⟩,
      h.down⟩
  | advanced hstep => exact h.advanced hstep

theorem turned (h : s.Staged) (hturned : s.Turned t) : t.Staged := by
  cases hturned with
  | nothing => exact h
  | told =>
    refine ⟨h.closed_iff, h.held, h.due, fun hended => ?_, h.down⟩
    obtain ⟨⟨hup, hheld, hdue, hidle⟩, hrest⟩ := h.ended hended
    exact ⟨⟨hup, hheld, hdue, hidle⟩, hrest⟩
  | deserted =>
    refine ⟨h.closed_iff, h.held, h.due, fun hended => ?_, h.down⟩
    obtain ⟨⟨hup, hheld, hdue, hidle⟩, hrest⟩ := h.ended hended
    exact ⟨⟨hup, hheld, hdue, hidle⟩, hrest⟩
  | called hthere i =>
    obtain ⟨htaking, -, hclosed, -⟩ := s.traffic.call_frame i
    refine ⟨?_, ?_, ?_, ?_, h.down⟩
    · rw [hclosed]
      exact h.closed_iff
    · rw [htaking]
      exact h.held
    · rw [htaking]
      exact h.due
    · intro hended
      obtain ⟨hfree, hwaiting, htasks⟩ := h.ended hended
      refine ⟨⟨hfree.up, hfree.held, hfree.due, htaking.trans hfree.idle⟩, ?_, htasks⟩
      -- No request comes into the queue after its end.
      obtain ⟨-, hsame⟩ | ⟨hopen, -⟩ := s.traffic.entered_call i
      · exact hsame.trans hwaiting
      · have hclosed : s.traffic.queue.isClosed = true := by
          rw [h.closed_iff, hended]
          exact .inl nofun
        rw [hopen] at hclosed
        cases hclosed
  | worked hworks => exact h.works hworks

end Staged

/-! ## Where requests are -/

/-- What came into the queue is written down, and where it is now. -/
structure Recorded (requests : List Request) (s : Service σ τ) : Prop where
  /-- What came into the queue is written down, and once. -/
  logged : s.traffic.Logged requests
  /-- It was handed to the consumer or is in the queue, unless the consumer is gone. -/
  ordered : ∃ lost, s.traffic.Ordered lost ∧ (s.isDown = false → lost = [])
  /-- The consumer has processed what it has received, or has it at hand. -/
  handled : s.traffic.handedOut = s.handled.map Prod.fst ++ s.held.toList

namespace Recorded

omit [Backend σ] [StampStore τ] in
theorem start (capacity : Nat) (requests : List Request) (p : Pipeline σ τ) :
    (Service.start capacity requests p).Recorded requests where
  logged := Traffic.logged_start capacity requests
  ordered := ⟨[], .start capacity requests, fun _ => rfl⟩
  handled := rfl

omit [Backend σ] [StampStore τ] in
/-- What is written down does not depend on marks of the queue. -/
theorem logged_congr {traffic : Traffic} {queue : Intake.Queue} (h : traffic.Logged requests)
    (hnumbered : queue.numbered = traffic.queue.numbered) :
    Traffic.Logged requests { traffic with queue } :=
  ⟨h.requests, fun hnumber => (h.sequence_le hnumber).trans hnumbered.ge, h.sequence_inj,
    h.mem_entered_iff, h.nodup⟩

theorem works (h : s.Recorded requests) (hworks : s.Works t) : t.Recorded requests := by
  obtain ⟨lost, hordered, hlost⟩ := h.ordered
  have hhandled := h.handled
  cases hworks with
  | took hfree htakes hwaiting =>
    exact ⟨h.logged.turned (.took hfree.idle hwaiting),
      ⟨lost, hordered.took hfree.idle hwaiting, hlost⟩, h.handled⟩
  | lowered hheld hdue htaking =>
    exact ⟨h.logged.turned (.lowered htaking), ⟨lost, hordered.lowered htaking, hlost⟩, h.handled⟩
  | received hheld hdue htaking =>
    refine ⟨h.logged.turned (.handedOut htaking), ⟨lost, hordered.handedOut htaking, hlost⟩, ?_⟩
    rw [hheld, Option.toList_none, List.append_nil] at hhandled
    dsimp only
    rw [hhandled, Option.toList_some]
  | answered hheld hup hprocess =>
    refine ⟨h.logged, h.ordered, ?_⟩
    rw [hheld] at hhandled
    dsimp only [answer]
    rw [hhandled, List.map_append, Option.toList_none, List.append_nil]
    rfl
  | brokeDown hheld hup hprocess =>
    rw [hlost hup] at hordered
    exact ⟨logged_congr h.logged rfl, ⟨_, hordered.abandon, fun hstill => nomatch hstill⟩,
      h.handled⟩
  | closed hfree hstage hlast =>
    exact ⟨logged_congr h.logged rfl, ⟨lost, hordered, hlost⟩, h.handled⟩
  | _ => exact ⟨h.logged, h.ordered, h.handled⟩

theorem turned (h : s.Recorded requests) (hstaged : s.Staged) (hturned : s.Turned t) :
    t.Recorded requests := by
  obtain ⟨lost, hordered, hlost⟩ := h.ordered
  cases hturned with
  | nothing => exact h
  | told => exact ⟨h.logged, h.ordered, h.handled⟩
  | deserted => exact ⟨logged_congr h.logged rfl, ⟨lost, hordered, hlost⟩, h.handled⟩
  | called hthere i =>
    refine ⟨h.logged.call i, ⟨lost, hordered.call ?_ i, hlost⟩, ?_⟩
    · -- The consumer does not leave an open queue behind.
      intro hopen
      apply hlost
      rw [← Bool.not_eq_true]
      intro hdown
      rw [hstaged.closed_iff.mpr (.inr hdown)] at hopen
      cases hopen
    · exact (s.traffic.call_frame i).2.1.trans h.handled
  | worked hworks => exact h.works hworks

end Recorded

/-! ## What has been handed out -/

/-- An answer is a step of the session. -/
theorem step_answer {request : Request} {clock : Nat → Instant} {outcomes : List Outcome}
    {state : Normalizer.State τ} (hdue : s.session.due = [])
    (hprocess : Normalizer.processOver request clock s.session.pipeline.state
      = .ok (outcomes, state)) :
    Session.Step s.session (s.answer request outcomes state).session := by
  obtain ⟨traffic, ⟨p, due, tasks, log⟩⟩ := s
  cases hdue
  exact .process hprocess

/-- So is a part that is handed out. -/
theorem step_handOut {part : Part} {due : List Part} {now : Instant}
    (hdue : s.session.due = part :: due) :
    Session.Step s.session (s.handOut part due now).session := by
  obtain ⟨traffic, ⟨p, due', tasks, log⟩⟩ := s
  cases hdue
  exact .handOut

/-- What the consumer and the tasks have done since a pipeline was new. -/
structure Worked (initial : Pipeline σ τ) (s : Service σ τ) : Prop where
  /-- They have taken the steps of a session. -/
  steps : Relation.ReflTransGen Session.Step { pipeline := initial } s.session
  /-- The outcomes are those of the requests that have been processed. -/
  log : s.session.log = s.handled.flatMap fun handled =>
    handled.2.map fun outcome => (handled.1, outcome)
  /-- The work of every outcome is that of the first one. -/
  frame : s.session.pipeline.attempts = initial.attempts
    ∧ s.session.pipeline.outlets.length = initial.outlets.length
  /-- All parts of the outcomes have been handed out or are due. -/
  ledger : s.out ++ s.session.due = ledgerOf initial.attempts initial.outlets.length s.session.log

namespace Worked

theorem start (capacity : Nat) (requests : List Request) (p : Pipeline σ τ) :
    (Service.start capacity requests p).Worked p where
  steps := .refl
  log := rfl
  frame := ⟨rfl, rfl⟩
  ledger := rfl

theorem works (h : s.Worked initial) (hstaged : s.Staged) (hworks : s.Works t) :
    t.Worked initial := by
  have hledger := h.ledger
  cases hworks with
  | @answered request clock outcomes state hheld hup hprocess =>
    obtain ⟨hdue, -⟩ := hstaged.held _ hheld
    refine ⟨h.steps.tail (step_answer hdue hprocess), ?_, h.frame, ?_⟩
    · dsimp only [answer]
      rw [h.log, List.flatMap_append]
      simp
    · rw [hdue, List.append_nil] at hledger
      dsimp only [answer]
      rw [ledgerOf_append, ledgerOf_request, hledger, h.frame.1, h.frame.2]
  | @handedOut part due now hheld hdue =>
    obtain ⟨hattempts, houtlets⟩ := part.handOut_frame s.session.pipeline now
    refine ⟨h.steps.tail (step_handOut hdue), h.log, ⟨?_, ?_⟩, ?_⟩
    · exact hattempts.trans h.frame.1
    · exact (congrArg List.length houtlets).trans h.frame.2
    · rw [hdue] at hledger
      exact (List.append_assoc ..).trans hledger
  | @advanced session hstep =>
    obtain ⟨hdue, hlog⟩ := hstep.frame
    refine ⟨h.steps.tail (.task hstep), hlog.trans h.log, ?_, ?_⟩
    · obtain ⟨hattempts, houtlets⟩ := hstep.pipeline_frame
      exact ⟨hattempts.trans h.frame.1, houtlets.trans h.frame.2⟩
    · dsimp only
      rw [hdue, hlog]
      exact hledger
  | _ => exact ⟨h.steps, h.log, h.frame, h.ledger⟩

theorem turned (h : s.Worked initial) (hstaged : s.Staged) (hturned : s.Turned t) :
    t.Worked initial := by
  cases hturned with
  | worked hworks => exact h.works hstaged hworks
  | _ => exact ⟨h.steps, h.log, h.frame, h.ledger⟩

end Worked

/-! ## Runs -/

/-- Everything that is to be said of a service after any turns. -/
structure Kept (requests : List Request) (initial : Pipeline σ τ) (s : Service σ τ) : Prop where
  /-- What the consumer is about fits to its stage. -/
  staged : s.Staged
  /-- Every request that came in is written down, and where it is. -/
  recorded : s.Recorded requests
  /-- The consumer and the tasks have taken the steps of a session. -/
  worked : s.Worked initial

/-- It holds after any turns. -/
theorem kept_run (capacity : Nat) (requests : List Request) (initial : Pipeline σ τ)
    (turns : List Turn) :
    ((Service.start capacity requests initial).run turns).Kept requests initial := by
  induction turns using List.reverseRecOn with
  | nil => exact ⟨.start capacity requests initial, .start capacity requests initial,
      .start capacity requests initial⟩
  | append_singleton turns turn ih =>
    obtain ⟨hstaged, hrecorded, hworked⟩ := ih
    rw [run_concat]
    have hturned := turned ((Service.start capacity requests initial).run turns) turn
    exact ⟨hstaged.turned hturned, hrecorded.turned hstaged hturned, hworked.turned hstaged hturned⟩

end FieldTelemetry.Pipeline.Service
