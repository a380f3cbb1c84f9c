import FieldTelemetry.Intake.Request
import FieldTelemetry.Record.Counters

/-!
# The intake queue

All listeners put their requests into one queue of bounded capacity, and one consumer takes them out
in their order. When as many requests as the capacity are in the queue or on their way into it, the
breaker opens. It never closes again, and further requests are refused.

A request enters the queue in steps, between which other requests may take theirs.

## Main definitions

* `Queue`: the queue
* `Entry`, `Entry.step`: how far a request has come into the queue, and its next step
* `Queue.enqueue`, `Queue.receive`, `Queue.close`: what producers and the consumer do
* `Queue.watch`: what the guard of the breaker reports
* `Mode`: what the usual capacity depends on
-/

namespace FieldTelemetry.Intake

/-- Why a request was refused. -/
inductive IntakeError
  /-- The breaker is open. -/
  | circuitOpen
  /-- The consumer has left. -/
  | closed
deriving DecidableEq, Repr

/-- The wording of an error. -/
def IntakeError.message : IntakeError → String
  | .circuitOpen => "intake circuit breaker is open"
  | .closed => "intake queue closed"

/-- What the usual capacity depends on. -/
inductive Mode
  /-- The collector is one of several that senders can choose. -/
  | http
  /-- The collector empties a broker. -/
  | broker
deriving DecidableEq, Repr, Inhabited

/-- The usual capacity. -/
def Mode.capacity : Mode → Nat
  | .http => 100
  | .broker => 25

/-- The name of a mode. -/
def Mode.name : Mode → String
  | .http => "http"
  | .broker => "broker"

/-- The intake queue. -/
structure Queue where
  /-- The number of requests that it holds. -/
  capacity : Nat
  /-- It holds one request at least. -/
  capacity_pos : 0 < capacity
  /-- The requests in it, the oldest first. -/
  waiting : List Request := []
  /-- How many numbers have been given to requests. -/
  numbered : Nat := 0
  /-- How many requests were accepted. -/
  enqueued : Nat := 0
  /-- How many requests were handed out. -/
  dequeued : Nat := 0
  /-- How many requests the open breaker refused. -/
  rejected : Nat := 0
  /-- How many requests are in the queue or on their way into it. -/
  depth : Nat := 0
  /-- The largest depth so far. -/
  highWater : Nat := 0
  /-- How often the breaker opened. -/
  trips : Nat := 0
  /-- The breaker is open. -/
  isOpen : Bool := false
  /-- The consumer takes no more requests than those in the queue. -/
  isClosed : Bool := false
  /-- No producer is left. -/
  isDeserted : Bool := false
deriving DecidableEq

namespace Queue

/-- An empty queue. It holds one request at least. -/
def new (capacity : Nat) : Queue := { capacity := max capacity 1, capacity_pos := by omega }

/-- Opens the breaker, and says whether it was closed before. -/
def trip (queue : Queue) : Bool × Queue :=
  if queue.isOpen then (false, queue)
  else (true, { queue with isOpen := true, trips := queue.trips + 1 })

/-- One more request on its way. The breaker opens at the capacity. -/
def raise (queue : Queue) : Queue :=
  let depth := queue.depth + 1
  let raised := { queue with depth := depth, highWater := max queue.highWater depth }
  -- The request that fills the queue is still delivered.
  if queue.capacity ≤ depth then raised.trip.2 else raised

/-! ## Entering -/

end Queue

/-- How far a request has come into the queue. -/
inductive Entry
  /-- It has not come to the breaker. -/
  | arriving
  /-- It has passed the breaker. -/
  | admitted
  /-- It has a number. -/
  | numbered (sequence : Nat)
  /-- It is part of the depth and waits for a free place. -/
  | pushing (sequence : Nat)
  /-- It is in the queue. -/
  | pushed (sequence : Nat)
  /-- It was accepted under a number, or refused. -/
  | done (result : Except IntakeError Nat)

/-- The next step of a request into the queue. -/
def Entry.step (request : Request) : Entry → Queue → Entry × Queue
  | .arriving, queue =>
    if queue.isOpen then
      (.done (.error .circuitOpen), { queue with rejected := queue.rejected + 1 })
    else (.admitted, queue)
  | .admitted, queue =>
    (.numbered (queue.numbered + 1), { queue with numbered := queue.numbered + 1 })
  | .numbered sequence, queue => (.pushing sequence, queue.raise)
  | .pushing sequence, queue =>
    -- The number of a request that comes too late is not given again.
    if queue.isClosed then (.done (.error .closed), { queue with depth := queue.depth - 1 })
    else if queue.waiting.length < queue.capacity then
      (.pushed sequence, { queue with waiting := queue.waiting ++ [{ request with sequence }] })
    else (.pushing sequence, queue)
  | .pushed sequence, queue =>
    (.done (.ok sequence), { queue with enqueued := queue.enqueued + 1 })
  | .done result, queue => (.done result, queue)

/-- Several steps of a request into the queue. -/
def Entry.steps (request : Request) : Nat → Entry → Queue → Entry × Queue
  | 0, entry, queue => (entry, queue)
  | n + 1, entry, queue =>
    let (entry, queue) := entry.step request queue
    entry.steps request n queue

namespace Queue

/-- All steps of a request into the queue while nobody else is at work, ending with its number or
its refusal, or with nothing when it has to wait for a free place. -/
def enqueue (queue : Queue) (request : Request) : Option (Except IntakeError Nat) × Queue :=
  -- Five steps lead from the breaker to the number.
  match Entry.arriving.steps request 5 queue with
  | (.done result, queue) => (some result, queue)
  | (_, queue) => (none, queue)

/-! ## The consumer -/

/-- What the consumer gets. -/
inductive Received
  /-- A request. -/
  | request (request : Request)
  /-- Nothing as yet. -/
  | pending
  /-- Nothing more. -/
  | ended
deriving DecidableEq

/-- The next request for the consumer. -/
def receive (queue : Queue) : Received × Queue :=
  match queue.waiting with
  | request :: rest =>
    (.request request,
      { queue with waiting := rest, depth := queue.depth - 1, dequeued := queue.dequeued + 1 })
  -- Requests in the queue come out even after it was closed.
  | [] => (if queue.isClosed || queue.isDeserted then .ended else .pending, queue)

/-- The consumer takes no more requests than those in the queue. -/
def close (queue : Queue) : Queue := { queue with isClosed := true }

/-- The consumer leaves, and the requests in the queue are lost. -/
def abandon (queue : Queue) : Queue := { queue with isClosed := true, waiting := [] }

/-- All producers leave. -/
def desert (queue : Queue) : Queue := { queue with isDeserted := true }

/-! ## Reports -/

/-- What the queue has counted. -/
def counters (queue : Queue) : QueueCounters where
  capacity := .ofNat queue.capacity
  enqueued := .ofNat queue.enqueued
  dequeued := .ofNat queue.dequeued
  rejected := .ofNat queue.rejected
  depth := .ofNat queue.depth
  highWater := .ofNat queue.highWater
  trips := .ofNat queue.trips

/-- The text of the fault that an open breaker is. -/
def saturation (queue : Queue) : String :=
  "intake queue saturated at capacity " ++ Text.decimal queue.capacity ++ " (high water "
    ++ Text.decimal queue.highWater ++ ", " ++ Text.decimal queue.rejected ++ " rejected)"

/-- What the guard of the breaker reports: that the collector is shutting down, a fault, or nothing
as yet. -/
def watch (queue : Queue) (shutdown : Bool) : Option (Except String Unit) :=
  if shutdown then some (.ok ())
  else if queue.isOpen then some (.error queue.saturation)
  else none

end Queue

end FieldTelemetry.Intake
