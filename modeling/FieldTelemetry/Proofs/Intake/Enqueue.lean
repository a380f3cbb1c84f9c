import FieldTelemetry.Proofs.Intake.Turns
import Mathlib.Logic.Basic

/-!
# Requests that enter alone

While nobody else is at work, a request that enters the queue is refused by the open breaker, or it
finds the queue closed, or it comes in at once, or it waits for a free place.

## Main definitions

* `Queue.Accepts`: a queue that takes a request at once
* `Queue.joined`: a queue with one more request on its way

## Main results

* `Queue.enqueue_of_isOpen`, `Queue.enqueue_of_isClosed`, `Queue.enqueue_eq_of_accepts`: what
  becomes of a request, and what it leaves behind
* `Queue.enqueue_of_not_accepts`: what a queue does that takes no request at once
* `Queue.exists_enqueue_ok_iff`: requests are accepted by queues that take them at once
-/

namespace FieldTelemetry.Intake.Queue

/-- The queue takes a request at once. -/
structure Accepts (queue : Queue) : Prop where
  /-- The breaker is closed. -/
  closed : queue.isOpen = false
  /-- The consumer takes requests. -/
  served : queue.isClosed = false
  /-- A place is free. -/
  free : queue.waiting.length < queue.capacity

/-- The queue with one more request that has its number and is part of the depth. -/
def joined (queue : Queue) : Queue := ({ queue with numbered := queue.numbered + 1 } : Queue).raise

variable {queue : Queue}

theorem exists_joined (queue : Queue) : ∃ isOpen trips,
    queue.joined = { queue.lifted with numbered := queue.numbered + 1, isOpen, trips } := by
  obtain ⟨isOpen, trips, hraise⟩ :=
    ({ queue with numbered := queue.numbered + 1 } : Queue).exists_raise
  exact ⟨isOpen, trips, hraise⟩

/-- Once the breaker lets it pass, a request has its number and is part of the depth. -/
theorem enqueue_of_not_isOpen (h : queue.isOpen = false) (request : Request) :
    queue.enqueue request
      = match (Entry.pushing (queue.numbered + 1)).steps request 2 queue.joined with
        | (.done result, queue) => (some result, queue)
        | (_, queue) => (none, queue) := by
  obtain ⟨capacity, hpos, waiting, numbered, enqueued, dequeued, rejected, depth, highWater, trips,
    isOpen, isClosed, isDeserted⟩ := queue
  cases h
  rfl

/-! ## What becomes of a request -/

/-- The open breaker refuses a request, and nothing else changes. -/
theorem enqueue_of_isOpen (h : queue.isOpen = true) (request : Request) :
    queue.enqueue request
      = (some (.error .circuitOpen), { queue with rejected := queue.rejected + 1 }) := by
  simp [enqueue, Entry.steps, Entry.step, h]

/-- A closed queue refuses a request that the breaker has let pass. It is no part of the depth any
more, and everything else that it has changed on its way stays. -/
theorem enqueue_of_isClosed (hopen : queue.isOpen = false) (h : queue.isClosed = true)
    (request : Request) :
    queue.enqueue request
      = (some (.error .closed), { queue.joined with depth := queue.depth }) := by
  obtain ⟨isOpen, trips, hjoined⟩ := queue.exists_joined
  simp [enqueue_of_not_isOpen hopen, hjoined, lifted, Entry.steps, Entry.step, h]

/-- A queue that takes a request at once gives it the next number, and it comes last. -/
theorem enqueue_eq_of_accepts (h : queue.Accepts) (request : Request) :
    queue.enqueue request = (some (.ok (queue.numbered + 1)),
      { queue.joined with
        waiting := queue.waiting ++ [{ request with sequence := queue.numbered + 1 }]
        enqueued := queue.enqueued + 1 }) := by
  obtain ⟨isOpen, trips, hjoined⟩ := queue.exists_joined
  simp [enqueue_of_not_isOpen h.closed, hjoined, lifted, Entry.steps, Entry.step, h.served, h.free]

theorem enqueue_of_accepts (h : queue.Accepts) (request : Request) :
    (queue.enqueue request).1 = some (.ok (queue.numbered + 1))
      ∧ (queue.enqueue request).2.waiting
        = queue.waiting ++ [{ request with sequence := queue.numbered + 1 }] := by
  rw [enqueue_eq_of_accepts h]
  exact ⟨rfl, rfl⟩

/-- A request waits for a free place in a queue that is full. -/
theorem enqueue_of_full (hopen : queue.isOpen = false) (hclosed : queue.isClosed = false)
    (hfull : ¬ queue.waiting.length < queue.capacity) (request : Request) :
    queue.enqueue request = (none, queue.joined) := by
  obtain ⟨isOpen, trips, hjoined⟩ := queue.exists_joined
  simp [enqueue_of_not_isOpen hopen, hjoined, lifted, Entry.steps, Entry.step, hclosed, hfull]

/-- A queue that takes no request at once treats all requests alike. -/
theorem enqueue_of_not_accepts (h : ¬ queue.Accepts) (request : Request) :
    (∀ sequence, (queue.enqueue request).1 ≠ some (.ok sequence))
      ∧ (queue.enqueue request).2.waiting = queue.waiting
      ∧ ∀ other, queue.enqueue other = queue.enqueue request := by
  have hwaiting : queue.joined.waiting = queue.waiting := waiting_raise _
  cases hopen : queue.isOpen with
  | true =>
    rw [enqueue_of_isOpen hopen]
    exact ⟨nofun, rfl, enqueue_of_isOpen hopen⟩
  | false =>
    cases hclosed : queue.isClosed with
    | true =>
      rw [enqueue_of_isClosed hopen hclosed]
      exact ⟨nofun, hwaiting, enqueue_of_isClosed hopen hclosed⟩
    | false =>
      have hfull : ¬ queue.waiting.length < queue.capacity := fun hfree => h ⟨hopen, hclosed, hfree⟩
      rw [enqueue_of_full hopen hclosed hfull]
      exact ⟨nofun, hwaiting, enqueue_of_full hopen hclosed hfull⟩

/-- A queue accepts a request exactly when it takes it at once. -/
theorem exists_enqueue_ok_iff (queue : Queue) (request : Request) :
    (∃ sequence, (queue.enqueue request).1 = some (.ok sequence)) ↔ queue.Accepts := by
  constructor
  · rintro ⟨sequence, hok⟩
    exact not_not.mp fun hnot => (enqueue_of_not_accepts hnot request).1 sequence hok
  · exact fun h => ⟨_, (enqueue_of_accepts h request).1⟩

end FieldTelemetry.Intake.Queue
