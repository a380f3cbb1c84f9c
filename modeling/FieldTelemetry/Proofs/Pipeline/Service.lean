import FieldTelemetry.Pipeline.Consumer
import FieldTelemetry.Proofs.Intake.Closing
import FieldTelemetry.Proofs.Pipeline.Advance
import FieldTelemetry.Proofs.Pipeline.Log

/-!
# The consumer among producers and tasks

The consumer takes requests out of the queue while others are on their way into it, and the tasks
that it has started go on meanwhile. The word to stop may come between any two steps. Whoever has
the turn takes one step, and what has happened to requests is written down beside them.

The consumer looks for the word to stop and for the next request at once: a word that came between
the two looks would find the request taken, just as if it had come after both.

## Main definitions

* `Service`: the consumer with the queue, the requests on their way and the tasks
* `Service.turn`, `Service.run`: one step of one of them, and several
* `Service.Works`, `Service.Turned`: all that the consumer and the tasks can do, and all that a turn
  can do

## Main results

* `Service.works_or_waits`: the consumer does one of the things that it can do, or waits
* `Service.turned`: a turn does one of the things that a turn can do
-/

namespace FieldTelemetry.Pipeline

open Intake (Request Taking Traffic)
open Stamp (StampStore)
open Store (Backend)
open Time (Instant)

/-- The consumer with the queue, the requests on their way into it and the tasks at work. What has
happened is written down beside them, and no step depends on it. -/
structure Service (σ τ : Type) where
  /-- The queue and the requests on their way. -/
  traffic : Traffic
  /-- The pipeline and its tasks. -/
  session : Session σ τ
  /-- How far the consumer has come. -/
  stage : Stage := .running
  /-- The consumer is told to stop. -/
  isTold : Bool := false
  /-- A request has broken the consumer down. -/
  isDown : Bool := false
  /-- The request that the consumer has received and not yet processed. -/
  held : Option Request := none
  /-- The requests that have been processed, in their order, with their outcomes. -/
  handled : List (Request × List Outcome) := []
  /-- The parts of their work that have been handed out, in their order. -/
  out : List Part := []

namespace Service

/-- Who has the next turn. -/
inductive Turn
  /-- Somebody who tells the consumer to stop. -/
  | signal
  /-- The last producer, who leaves with all calls. -/
  | desert
  /-- A request on its way into the queue. -/
  | call (position : Nat)
  /-- The consumer, with the times that it finds when it looks at the clock. -/
  | consumer (clock : Nat → Instant)
  /-- A task. -/
  | task (position : Nat) (now : Instant)

variable {σ τ : Type}

/-- Requests come to an empty queue, and nothing has been handled. -/
def start (capacity : Nat) (requests : List Request) (p : Pipeline σ τ) : Service σ τ where
  traffic := .start capacity requests
  session := { pipeline := p }

/-! ## What the consumer does -/

/-- The consumer will take no more requests than those in the queue. -/
def close (s : Service σ τ) : Service σ τ :=
  { s with stage := .draining, traffic.queue := s.traffic.queue.close }

/-- A request has its outcomes, and the work of them is due. -/
def answer (s : Service σ τ) (request : Request) (outcomes : List Outcome)
    (state : Normalizer.State τ) : Service σ τ :=
  { s with
    held := none
    handled := s.handled ++ [(request, outcomes)]
    session :=
      { s.session with
        pipeline := { s.session.pipeline with state }
        due := outcomes.flatMap
          (partsOf s.session.pipeline.attempts s.session.pipeline.outlets.length request)
        log := s.session.log ++ outcomes.map fun outcome => (request, outcome) } }

/-- The consumer is gone, and nobody will take anything out of the queue. -/
def breakDown (s : Service σ τ) : Service σ τ :=
  { s with isDown := true, traffic.queue := s.traffic.queue.abandon }

/-- The consumer hands out a part of the work that is due. -/
def handOut (s : Service σ τ) (part : Part) (due : List Part) (now : Instant) : Service σ τ :=
  { s with
    session := .handedOut (part.handOut s.session.pipeline now) due s.session.tasks s.session.log
    out := s.out ++ [part] }

section Consume

variable [StampStore τ]

/-- The consumer processes a request and looks at the clock for each of its messages. -/
def process (s : Service σ τ) (request : Request) (clock : Nat → Instant) : Service σ τ :=
  match Normalizer.processOver request clock s.session.pipeline.state with
  | .ok (outcomes, state) => s.answer request outcomes state
  | .error _ => s.breakDown

/-- The consumer takes out the next request, or does what is to be done when there will be none. -/
def receive (s : Service σ τ) : Service σ τ :=
  match s.stage, s.traffic.queue.waiting with
  | .running, _ :: _ => if s.isTold then s.close else { s with traffic := s.traffic.consume }
  | .running, [] => if s.isTold || s.traffic.queue.isDeserted then s.close else s
  | .draining, _ :: _ => { s with traffic := s.traffic.consume }
  | .draining, [] => if s.session.tasks.isEmpty then { s with stage := .ended } else s
  | .ended, _ => s

/-- The next step of the consumer. -/
def consume (s : Service σ τ) (clock : Nat → Instant) : Service σ τ :=
  match s.held, s.session.due, s.traffic.taking with
  | some request, _, _ => s.process request clock
  | none, part :: due, _ => s.handOut part due (clock 0)
  | none, [], .idle => s.receive
  | none, [], .took _ => { s with traffic := s.traffic.consume }
  | none, [], .lowered request => { s with traffic := s.traffic.consume, held := some request }

end Consume

variable [Backend σ] [StampStore τ]

/-- The next step of whoever has the turn. Nobody is on the way any more when all producers have
left, and the tasks go on without the consumer. -/
def turn (s : Service σ τ) : Turn → Service σ τ
  | .signal => { s with isTold := true }
  | .desert => { s with traffic.queue := s.traffic.queue.desert }
  | .call position =>
    if s.traffic.queue.isDeserted then s
    else { s with traffic := s.traffic.turn (.call position) }
  | .consumer clock => if s.isDown then s else s.consume clock
  | .task position now => { s with session := s.session.advance position now }

/-- Several steps, one after the other. -/
def run (s : Service σ τ) (turns : List Turn) : Service σ τ := turns.foldl turn s

@[simp]
theorem run_concat (s : Service σ τ) (turns : List Turn) (next : Turn) :
    s.run (turns ++ [next]) = (s.run turns).turn next := by
  rw [run, List.foldl_append]
  rfl

/-! ## What a turn does -/

/-- The consumer has nothing at hand. -/
structure Free (s : Service σ τ) : Prop where
  /-- It is there. -/
  up : s.isDown = false
  /-- It has no request to process. -/
  held : s.held = none
  /-- It has no work to hand out. -/
  due : s.session.due = []
  /-- It is not about to receive a request. -/
  idle : s.traffic.taking = .idle

/-- The consumer takes out requests: it is not told to stop, or it takes out the last ones. -/
def Takes (s : Service σ τ) : Prop := s.stage = .running ∧ s.isTold = false ∨ s.stage = .draining

omit [Backend σ] [StampStore τ] in
theorem Takes.stage_ne_ended {s : Service σ τ} (h : s.Takes) : s.stage ≠ .ended := by
  intro hended
  obtain ⟨hstage, -⟩ | hstage := h
  · rw [hstage] at hended
    cases hended
  · rw [hstage] at hended
    cases hended

/-- All that the consumer and the tasks can do. -/
inductive Works (s : Service σ τ) : Service σ τ → Prop
  /-- The consumer takes a request out of the queue. -/
  | took {request : Request} {rest : List Request} (hfree : s.Free) (htakes : s.Takes)
    (hwaiting : s.traffic.queue.waiting = request :: rest) :
    Works s { s with traffic :=
      { s.traffic with queue := s.traffic.queue.pop rest, taking := .took request } }
  /-- It counts the request out of the depth. -/
  | lowered {request : Request} (hheld : s.held = none) (hdue : s.session.due = [])
    (htaking : s.traffic.taking = .took request) :
    Works s { s with traffic :=
      { s.traffic with queue := s.traffic.queue.lower, taking := .lowered request } }
  /-- It counts the request as handed out, and has it at hand. -/
  | received {request : Request} (hheld : s.held = none) (hdue : s.session.due = [])
    (htaking : s.traffic.taking = .lowered request) :
    Works s { s with
      held := some request
      traffic :=
        { s.traffic with
          queue := s.traffic.queue.countOut
          taking := .idle
          handedOut := s.traffic.handedOut ++ [request] } }
  /-- The request at hand is answered. -/
  | answered {request : Request} {clock : Nat → Instant} {outcomes : List Outcome}
    {state : Normalizer.State τ} (hheld : s.held = some request) (hup : s.isDown = false)
    (hprocess : Normalizer.processOver request clock s.session.pipeline.state
      = .ok (outcomes, state)) :
    Works s (s.answer request outcomes state)
  /-- The service breaks down at the request at hand. -/
  | brokeDown {request : Request} {clock : Nat → Instant} {breakdown : Breakdown}
    (hheld : s.held = some request) (hup : s.isDown = false)
    (hprocess : Normalizer.processOver request clock s.session.pipeline.state
      = .error breakdown) :
    Works s s.breakDown
  /-- An outcome is handed to the tasks and to the outlets. -/
  | handedOut {part : Part} {due : List Part} {now : Instant} (hheld : s.held = none)
    (hdue : s.session.due = part :: due) : Works s (s.handOut part due now)
  /-- The consumer closes the queue when it is told to stop, or finds it deserted and empty. -/
  | closed (hfree : s.Free) (hstage : s.stage = .running)
    (hlast : s.isTold = true ∨ s.traffic.queue.isDeserted = true ∧ s.traffic.queue.waiting = []) :
    Works s s.close
  /-- The service ends when there are no more requests and no more tasks. -/
  | ended (hfree : s.Free) (hstage : s.stage = .draining) (hwaiting : s.traffic.queue.waiting = [])
    (htasks : s.session.tasks = []) : Works s { s with stage := .ended }
  /-- A task takes a step. -/
  | advanced {session : Session σ τ} (hstep : Session.TaskStep s.session session) :
    Works s { s with session }

/-- The consumer waits for a request, for tasks, or for nothing. -/
inductive Waits (s : Service σ τ) : Prop
  /-- Another request may come. -/
  | request (hstage : s.stage = .running) (htold : s.isTold = false)
    (hthere : s.traffic.queue.isDeserted = false)
  /-- Tasks are still at work. -/
  | tasks (hfree : s.Free) (hstage : s.stage = .draining) (hwaiting : s.traffic.queue.waiting = [])
    (htasks : s.session.tasks ≠ [])
  /-- The service has ended. -/
  | nothing (hstage : s.stage = .ended)

/-- All that a turn can do. -/
inductive Turned (s : Service σ τ) : Service σ τ → Prop
  /-- Nothing happens. -/
  | nothing : Turned s s
  /-- The service is told to stop. -/
  | told : Turned s { s with isTold := true }
  /-- All callers are gone. -/
  | deserted : Turned s { s with traffic.queue := s.traffic.queue.desert }
  /-- A request on its way takes a step. -/
  | called (hthere : s.traffic.queue.isDeserted = false) (i : Nat) :
    Turned s { s with traffic := s.traffic.turn (.call i) }
  /-- The consumer or a task takes a step. -/
  | worked {t : Service σ τ} (h : s.Works t) : Turned s t

variable {s : Service σ τ}

/-- The consumer takes out a request, ends, or waits. -/
theorem receive_works_or_waits (hfree : s.Free) :
    s.Works s.receive ∨ s.receive = s ∧ s.Waits := by
  have htook (htakes : s.Takes) {request : Request} {rest : List Request}
      (hwaiting : s.traffic.queue.waiting = request :: rest) :
      s.Works { s with traffic := s.traffic.consume } := by
    have hconsume : s.traffic.consume
        = { s.traffic with queue := s.traffic.queue.pop rest, taking := .took request } := by
      rw [Traffic.consume, hfree.idle, hwaiting]
    rw [hconsume]
    exact .took hfree htakes hwaiting
  rw [receive]
  split
  · rename_i hstage hwaiting
    split
    · rename_i htold
      exact .inl (.closed hfree hstage (.inl htold))
    · rename_i htold
      exact .inl (htook (.inl ⟨hstage, Bool.eq_false_of_not_eq_true htold⟩) hwaiting)
  · rename_i hstage hwaiting
    split
    · rename_i hlast
      rw [Bool.or_eq_true] at hlast
      exact .inl (.closed hfree hstage (hlast.imp_right fun hthere => ⟨hthere, hwaiting⟩))
    · rename_i hmore
      rw [Bool.or_eq_true, not_or, Bool.not_eq_true, Bool.not_eq_true] at hmore
      exact .inr ⟨rfl, .request hstage hmore.1 hmore.2⟩
  · rename_i hstage hwaiting
    exact .inl (htook (.inr hstage) hwaiting)
  · rename_i hstage hwaiting
    split
    · rename_i htasks
      exact .inl (.ended hfree hstage hwaiting (List.isEmpty_iff.mp htasks))
    · rename_i htasks
      exact .inr ⟨rfl, .tasks hfree hstage hwaiting fun hnil => htasks (List.isEmpty_iff.mpr hnil)⟩
  · rename_i hstage
    exact .inr ⟨rfl, .nothing hstage⟩

/-- The consumer does one of the things that it can do, or waits. -/
theorem works_or_waits (hup : s.isDown = false) (clock : Nat → Instant) :
    s.Works (s.consume clock) ∨ s.consume clock = s ∧ s.Waits := by
  rw [consume]
  split
  · rename_i request hheld
    rw [process]
    split
    · rename_i outcomes state hprocess
      exact .inl (.answered hheld hup hprocess)
    · rename_i breakdown hprocess
      exact .inl (.brokeDown hheld hup hprocess)
  · rename_i part due hheld hdue
    exact .inl (.handedOut hheld hdue)
  · rename_i hheld hdue hidle
    exact receive_works_or_waits ⟨hup, hheld, hdue, hidle⟩
  · rename_i request hheld hdue htaking
    rw [Traffic.consume, htaking]
    exact .inl (.lowered hheld hdue htaking)
  · rename_i request hheld hdue htaking
    rw [Traffic.consume, htaking]
    exact .inl (.received hheld hdue htaking)

/-- A turn does one of these things. -/
theorem turned (s : Service σ τ) (turn : Turn) : s.Turned (s.turn turn) := by
  cases turn with
  | signal => exact .told
  | desert => exact .deserted
  | call position =>
    rw [Service.turn]
    split
    · exact .nothing
    · rename_i hthere
      exact .called (Bool.eq_false_of_not_eq_true hthere) position
  | consumer clock =>
    rw [Service.turn]
    split
    · exact .nothing
    · rename_i hup
      obtain hworks | ⟨hsame, -⟩ := works_or_waits (Bool.eq_false_of_not_eq_true hup) clock
      · exact .worked hworks
      · rw [hsame]
        exact .nothing
  | task position now =>
    rw [Service.turn]
    obtain hsame | hstep := s.session.advance_cases position now
    · rw [hsame]
      exact .nothing
    · exact .worked (.advanced hstep)

end Service

end FieldTelemetry.Pipeline
