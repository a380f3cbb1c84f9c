import FieldTelemetry.Intake.Queue
import FieldTelemetry.Pipeline.Dispatch

/-!
# The consumer

The consumer takes the requests out of the intake queue. When it is told to stop, or no producer is
left, it closes the queue, takes out what is still in it, and ends when all work is done.

## Main definitions

* `Consumer`: the consumer with the queue and the pipeline
* `Consumer.step`: what it does next
* `Consumer.run`: what it does until it ends
-/

namespace FieldTelemetry.Pipeline

open Intake (Queue)
open Stamp (StampStore)
open Store (Backend)
open Time (Instant)

/-- How far a consumer has come. -/
inductive Stage
  /-- It waits for requests. -/
  | running
  /-- It takes out what is still in the queue. -/
  | draining
  /-- It has ended. -/
  | ended
deriving DecidableEq, Repr

/-- The consumer with the queue and the pipeline. -/
structure Consumer (σ τ : Type) where
  /-- How far it has come. -/
  stage : Stage := .running
  /-- The queue. -/
  queue : Queue
  /-- The pipeline. -/
  pipeline : Pipeline σ τ

namespace Consumer

variable {σ τ : Type} [Backend σ] [StampStore τ]

/-- Handles the next request, or does what is to be done when there will be none. -/
def receive (consumer : Consumer σ τ) (now : Instant)
    (ended : Queue → Consumer σ τ) : Except Breakdown (Consumer σ τ) :=
  match consumer.queue.receive with
  | (.request request, queue) => do
    let (_, pipeline) ← consumer.pipeline.handle request now
    return { consumer with queue, pipeline }
  | (.pending, queue) => .ok { consumer with queue }
  | (.ended, queue) => .ok (ended queue)

/-- What the consumer does next, whether it is told to stop or not. -/
def step (consumer : Consumer σ τ) (stop : Bool) (now : Instant) :
    Except Breakdown (Consumer σ τ) :=
  match consumer.stage with
  | .running =>
    if stop then .ok { consumer with stage := .draining, queue := consumer.queue.close }
    else consumer.receive now fun queue =>
      { consumer with stage := .draining, queue := queue.close }
  | .draining =>
    consumer.receive now fun queue =>
      { consumer with stage := .ended, queue, pipeline := consumer.pipeline.settle now }
  | .ended => .ok consumer

/-- Several steps of a consumer. -/
def steps (stop : Bool) (now : Instant) : Nat → Consumer σ τ → Except Breakdown (Consumer σ τ)
  | 0, consumer => .ok consumer
  | n + 1, consumer => do steps stop now n (← consumer.step stop now)

/-- What a consumer does while no producer is at work: it ends after the last request in the queue
if it is told to stop or no producer is left. -/
def run (consumer : Consumer σ τ) (stop : Bool) (now : Instant) :
    Except Breakdown (Consumer σ τ) :=
  steps stop now (consumer.queue.waiting.length + 2) consumer

end Consumer

end FieldTelemetry.Pipeline
