import FieldTelemetry.Proofs.Intake.Closing
import FieldTelemetry.Proofs.Intake.Enqueue
import Mathlib.Data.List.Induction

/-!
# What a refused request leaves behind

A request that the open breaker refuses leaves the queue alone. One that comes to a closed queue has
already been part of the depth when it is refused, and only the depth is put back: the high water
has followed, and the breaker has opened if the depth has reached the capacity. So the request that
opens the breaker comes in exactly when the queue is not closed.

## Main definitions

* `Traffic.Event`, `Traffic.happen`, `Traffic.after`: what happens at a queue until it is reached
* `Queue.Spared`: a queue that is as it was, but for the count of refusals and the numbers
* `Queue.Gated`: what becomes of a request, and what it leaves behind

## Main results

* `Traffic.Weighed.happen`, `Traffic.Tripped.happen`: what depth and breaker say of a queue
* `Traffic.refusing_after`: what a request leaves behind in a queue that can be reached
* `not_spared_of_close`: a refused request that has opened the breaker
-/

namespace FieldTelemetry.Intake

namespace Traffic

/-! ## Queues that can be reached -/

/-- What happens at a queue. -/
inductive Event
  /-- A request on its way or the consumer takes its next step. -/
  | turn (turn : Turn)
  /-- The consumer takes no more requests than those in the queue. -/
  | close
  /-- The consumer leaves. -/
  | abandon

/-- The traffic after an event. -/
def happen (s : Traffic) : Event → Traffic
  | .turn turn => s.turn turn
  | .close => { s with queue := s.queue.close }
  | .abandon => { s with queue := s.queue.abandon }

/-- The traffic after several events. -/
def after (s : Traffic) (events : List Event) : Traffic := events.foldl happen s

theorem after_concat (s : Traffic) (events : List Event) (last : Event) :
    s.after (events ++ [last]) = (s.after events).happen last := by
  rw [after, List.foldl_append]
  rfl

variable {s t : Traffic}

/-- A request or the consumer takes a step as at an open queue, or a request comes too late. -/
theorem turned_or_late (s : Traffic) (turn : Turn) :
    s.Turned (s.turn turn) ∨ ∃ i request sequence,
      s.calls[i]? = some ⟨request, .pushing sequence⟩ ∧ s.turn turn
        = s.move i ⟨request, .done (.error .closed)⟩
          { s.queue with depth := s.queue.depth - 1 } := by
  cases turn with
  | consumer => exact .inl s.turned_consume
  | call i =>
    obtain hturned | ⟨request, sequence, hcall, -, hlate⟩ := s.turned_call i
    · exact .inl hturned
    · exact .inr ⟨i, request, sequence, hcall, hlate⟩

/-! ### The depth -/

/-- The depth counts the requests in the queue, those on their way into it and the one that the
consumer has taken out of it. -/
def Weighed (s : Traffic) : Prop :=
  s.queue.waiting.length + s.calls.countP Call.isPushing + s.taking.held ≤ s.queue.depth

namespace Weighed

theorem move {i : Nat} {old new : Call} {queue : Queue} (h : s.Weighed)
    (hcall : s.calls[i]? = some old)
    (hweight : queue.waiting.length + new.isPushing.toNat + s.queue.depth
      ≤ s.queue.waiting.length + old.isPushing.toNat + queue.depth) :
    (s.move i new queue).Weighed := by
  have hpushing := countP_set_add Call.isPushing new hcall
  rw [Weighed] at h ⊢
  simp only [Traffic.move]
  omega

theorem turned (h : s.Weighed) (hturned : s.Turned t) : t.Weighed := by
  cases hturned with
  | nothing => exact h
  | refused hcall hopen => exact h.move hcall le_rfl
  | admitted hcall hopen => exact h.move hcall le_rfl
  | numbered hcall => exact h.move hcall le_rfl
  | @raised i sequence request hcall =>
    obtain ⟨isOpen, trips, hraise⟩ := s.queue.exists_raise
    have hmoved : (s.move i ⟨request, .pushing sequence⟩ s.queue.raise).Weighed := by
      refine h.move hcall ?_
      simp only [hraise, Queue.lifted, Call.isPushing, Bool.toNat_true, Bool.toNat_false]
      omega
    exact hmoved
  | @pushed i sequence request hcall hfree =>
    have hmoved : (s.move i ⟨request, .pushed sequence⟩
        { s.queue with waiting := s.queue.waiting ++ [{ request with sequence }] }).Weighed := by
      refine h.move hcall ?_
      simp only [List.length_append, List.length_singleton, Call.isPushing, Bool.toNat_true,
        Bool.toNat_false]
      omega
    exact hmoved
  | counted hcall => exact h.move hcall le_rfl
  | took htaking hwaiting =>
    simp only [Weighed, hwaiting, htaking, Taking.held, List.length_cons] at h
    simp only [Weighed, Queue.pop, Taking.held]
    omega
  | lowered htaking =>
    simp only [Weighed, htaking, Taking.held] at h
    simp only [Weighed, Queue.lower, Taking.held]
    omega
  | handedOut htaking =>
    simp only [Weighed, htaking, Taking.held] at h
    exact h

theorem happen (h : s.Weighed) (event : Event) : (s.happen event).Weighed := by
  cases event with
  | turn turn =>
    obtain hturned | ⟨i, request, sequence, hcall, hlate⟩ := s.turned_or_late turn
    · exact h.turned hturned
    · rw [Traffic.happen, hlate]
      refine h.move hcall ?_
      simp only [Call.isPushing, Bool.toNat_true, Bool.toNat_false]
      omega
  | close => exact h
  | abandon =>
    rw [Weighed] at h
    simp only [Traffic.happen, Weighed, Queue.abandon, List.length_nil]
    omega

end Weighed

/-! ### The breaker -/

theorem Tripped.happen (h : s.Tripped) (event : Event) : (s.happen event).Tripped := by
  cases event with
  | turn turn =>
    obtain hturned | ⟨i, request, sequence, hcall, hlate⟩ := s.turned_or_late turn
    · exact h.turned hturned
    · rw [Traffic.happen, hlate]
      exact ⟨(Nat.sub_le _ _).trans h.depth_le, h.isOpen_iff, h.answers, h.trips⟩
  | close => exact ⟨h.depth_le, h.isOpen_iff, h.answers, h.trips⟩
  | abandon => exact ⟨h.depth_le, h.isOpen_iff, h.answers, h.trips⟩

theorem weighed_and_tripped_after (capacity : Nat) (requests : List Request)
    (events : List Event) : ((start capacity requests).after events).Weighed
      ∧ ((start capacity requests).after events).Tripped := by
  induction events using List.reverseRecOn with
  | nil =>
    have hbalanced := balanced_start capacity requests
    exact ⟨hbalanced.depth.ge, tripped_start capacity requests⟩
  | append_singleton events last ih =>
    rw [after_concat]
    exact ⟨ih.1.happen last, ih.2.happen last⟩

end Traffic

/-! ## What a request leaves behind -/

namespace Queue

/-- The queue is as it was, but for the count of refusals and the numbers that have been given. -/
structure Spared (before after : Queue) : Prop where
  /-- The requests in the queue are the same. -/
  waiting : after.waiting = before.waiting
  /-- The depth is the same. -/
  depth : after.depth = before.depth
  /-- As many requests have been counted in. -/
  enqueued : after.enqueued = before.enqueued
  /-- As many requests have been counted out. -/
  dequeued : after.dequeued = before.dequeued
  /-- The depth has not been larger than before. -/
  highWater : after.highWater = before.highWater
  /-- The breaker has not opened once more. -/
  trips : after.trips = before.trips
  /-- It is open if it was. -/
  isOpen : after.isOpen = before.isOpen

/-- What becomes of a request at a queue, and what it leaves behind. -/
structure Gated (queue : Queue) (request : Request) (result : Option (Except IntakeError Nat))
    (left : Queue) : Prop where
  /-- An open breaker refuses the request. -/
  circuitOpen_iff : result = some (.error .circuitOpen) ↔ queue.isOpen = true
  /-- Otherwise a closed queue does. -/
  closed_iff : result = some (.error .closed) ↔ queue.isOpen = false ∧ queue.isClosed = true
  /-- A queue that is not closed accepts it at once. -/
  accepted_iff : result = some (.ok (queue.numbered + 1))
    ↔ queue.isOpen = false ∧ queue.isClosed = false
  /-- A refused request changes neither what is in the queue nor the depth nor what has come into it
  and out of it. -/
  refused : ∀ error, result = some (.error error) → left.waiting = queue.waiting
    ∧ left.depth = queue.depth ∧ left.enqueued = queue.enqueued ∧ left.dequeued = queue.dequeued
  /-- It leaves the high water and the breaker alone when the breaker has refused it, or when the
  depth has been larger before, and only then. -/
  spared_iff : ∀ error, result = some (.error error) →
    (Spared queue left ↔ error = .circuitOpen ∨ queue.depth < queue.highWater)
  /-- The high water is that of a request that has come in. -/
  highWater : queue.isOpen = false → left.highWater = max queue.highWater (queue.depth + 1)
  /-- The breaker opens for the request that brings the depth to the capacity. -/
  opens_iff : queue.isOpen = false → (left.isOpen = true ↔ queue.depth + 1 = queue.capacity)
  /-- It opens once, as the count of its openings says. -/
  trips : left.trips = left.isOpen.toNat
  /-- The request that opens it comes in exactly when the queue is not closed. -/
  opener : queue.isOpen = false → left.isOpen = true →
    (left.waiting = queue.waiting ++ [{ request with sequence := queue.numbered + 1 }]
      ↔ queue.isClosed = false)

/-- The depth counts what is in the queue, and the breaker opens when it reaches the capacity. -/
structure Sound (queue : Queue) : Prop where
  /-- What is in the queue is part of the depth. -/
  waiting_le : queue.waiting.length ≤ queue.depth
  /-- The depth has not been larger than the high water. -/
  depth_le : queue.depth ≤ queue.highWater
  /-- The breaker is open when the depth has reached the capacity. -/
  isOpen_iff : queue.isOpen = true ↔ queue.capacity ≤ queue.highWater
  /-- It has opened once, or not yet. -/
  trips : queue.trips = queue.isOpen.toNat

namespace Sound

variable {queue : Queue}

theorem highWater_lt (h : queue.Sound) (hopen : queue.isOpen = false) :
    queue.highWater < queue.capacity := by
  rw [← Nat.not_le, ← h.isOpen_iff, hopen]
  exact Bool.false_ne_true

/-- While the breaker is closed, a place is free. -/
theorem accepts (h : queue.Sound) (hopen : queue.isOpen = false)
    (hclosed : queue.isClosed = false) : queue.Accepts :=
  ⟨hopen, hclosed, (h.waiting_le.trans h.depth_le).trans_lt (h.highWater_lt hopen)⟩

/-- What the queue says of the high water and the breaker once a request is part of the depth. -/
theorem joined (h : queue.Sound) (hopen : queue.isOpen = false) :
    queue.joined.highWater = max queue.highWater (queue.depth + 1)
      ∧ (queue.joined.isOpen = true ↔ queue.depth + 1 = queue.capacity)
      ∧ queue.joined.trips = queue.joined.isOpen.toNat := by
  have htrips := h.trips
  have hdepth := h.depth_le
  have hbelow := h.highWater_lt hopen
  rw [hopen] at htrips
  rcases raise_cases { queue with numbered := queue.numbered + 1 }
    with ⟨hraise, -, -, hfull⟩ | ⟨-, -, hopened, -⟩ | ⟨hraise, -, hroom⟩
  · rw [Queue.joined, hraise]
    dsimp only [lifted] at hfull ⊢
    exact ⟨rfl, iff_of_true rfl (by omega), by rw [htrips]; rfl⟩
  · rw [hopen] at hopened
    cases hopened
  · rw [Queue.joined, hraise]
    dsimp only [lifted] at hroom ⊢
    rw [hopen, htrips]
    exact ⟨rfl, iff_of_false Bool.false_ne_true (by omega), rfl⟩

/-! ### The three ways of a request -/

theorem gated_of_isOpen (h : queue.Sound) (hopen : queue.isOpen = true) (request : Request) :
    queue.Gated request (queue.enqueue request).1 (queue.enqueue request).2 := by
  have hnot : ¬ queue.isOpen = false := by simp [hopen]
  rw [enqueue_of_isOpen hopen]
  refine ⟨iff_of_true rfl hopen, iff_of_false nofun fun h => hnot h.1,
    iff_of_false nofun fun h => hnot h.1, fun _ _ => ⟨rfl, rfl, rfl, rfl⟩, ?_,
    fun hclosed => absurd hclosed hnot, fun hclosed => absurd hclosed hnot, h.trips,
    fun hclosed => absurd hclosed hnot⟩
  rintro error ⟨⟩
  exact iff_of_true ⟨rfl, rfl, rfl, rfl, rfl, rfl, rfl⟩ (.inl rfl)

theorem gated_of_isClosed (h : queue.Sound) (hopen : queue.isOpen = false)
    (hclosed : queue.isClosed = true) (request : Request) :
    queue.Gated request (queue.enqueue request).1 (queue.enqueue request).2 := by
  have hnot : ¬ queue.isOpen = true := by simp [hopen]
  have hserved : ¬ queue.isClosed = false := by simp [hclosed]
  obtain ⟨hhigh, hopens, htrips⟩ := h.joined hopen
  have hbelow := h.highWater_lt hopen
  obtain ⟨isOpen, trips, hjoined⟩ := queue.exists_joined
  rw [enqueue_of_isClosed hopen hclosed]
  rw [hjoined] at hhigh hopens htrips ⊢
  dsimp only [lifted] at hhigh hopens htrips ⊢
  refine ⟨iff_of_false nofun hnot, iff_of_true rfl ⟨hopen, hclosed⟩,
    iff_of_false nofun fun h => hserved h.2, fun _ _ => ⟨rfl, rfl, rfl, rfl⟩, ?_, fun _ => hhigh,
    fun _ => hopens, htrips, ?_⟩
  · rintro error ⟨⟩
    constructor
    · intro hspared
      -- The high water has not followed the request, so it was above it.
      have hsame := hspared.highWater
      dsimp only at hsame
      exact .inr (by omega)
    · rintro (hopened | hdeeper)
      · cases hopened
      · have hstill : isOpen = false := by
          rw [← Bool.not_eq_true, hopens]
          omega
        refine ⟨rfl, rfl, rfl, rfl, ?_, ?_, hstill.trans hopen.symm⟩
        · exact Nat.max_eq_left hdeeper
        · rw [htrips, h.trips, hstill, hopen]
  · exact fun _ _ => iff_of_false (fun hsame => by simp at hsame) hserved

theorem gated_of_accepts (h : queue.Sound) (haccepts : queue.Accepts) (request : Request) :
    queue.Gated request (queue.enqueue request).1 (queue.enqueue request).2 := by
  have hnot : ¬ queue.isOpen = true := by simp [haccepts.closed]
  have hserved : ¬ queue.isClosed = true := by simp [haccepts.served]
  obtain ⟨hhigh, hopens, htrips⟩ := h.joined haccepts.closed
  rw [enqueue_eq_of_accepts haccepts]
  exact ⟨iff_of_false nofun hnot, iff_of_false nofun fun h => hserved h.2,
    iff_of_true rfl ⟨haccepts.closed, haccepts.served⟩, nofun, nofun, fun _ => hhigh,
    fun _ => hopens, htrips, fun _ _ => iff_of_true rfl haccepts.served⟩

theorem gated (h : queue.Sound) (request : Request) :
    queue.Gated request (queue.enqueue request).1 (queue.enqueue request).2 := by
  cases hopen : queue.isOpen with
  | true => exact h.gated_of_isOpen hopen request
  | false =>
    cases hclosed : queue.isClosed with
    | true => exact h.gated_of_isClosed hopen hclosed request
    | false => exact h.gated_of_accepts (h.accepts hopen hclosed) request

end Sound

end Queue

namespace Traffic

theorem sound_after (capacity : Nat) (requests : List Request) (events : List Event) :
    ((start capacity requests).after events).queue.Sound := by
  obtain ⟨hweighed, htripped⟩ := weighed_and_tripped_after capacity requests events
  rw [Weighed] at hweighed
  exact ⟨by omega, htripped.depth_le, htripped.isOpen_iff, htripped.trips⟩

/-- Requests that are refused, at a queue that can be reached. -/
structure Refusing (s : Traffic) : Prop where
  /-- A request that enters alone is refused by the breaker or the closed queue, or it comes in. -/
  alone : ∀ request,
    s.queue.Gated request (s.queue.enqueue request).1 (s.queue.enqueue request).2
  /-- A request that was on its way when the queue was closed puts back its part of the depth, and
  nothing else. -/
  late : ∀ i sequence request, s.calls[i]? = some ⟨request, .pushing sequence⟩ →
    s.queue.isClosed = true → 0 < s.queue.depth
      ∧ s.turn (.call i) = s.move i ⟨request, .done (.error .closed)⟩
        { s.queue with depth := s.queue.depth - 1 }

/-- What a refused request leaves behind in any queue that can be reached. -/
theorem refusing_after (capacity : Nat) (requests : List Request) (events : List Event) :
    ((start capacity requests).after events).Refusing := by
  refine ⟨fun request => (sound_after capacity requests events).gated request, ?_⟩
  intro i sequence request hcall hclosed
  have hweighed := (weighed_and_tripped_after capacity requests events).1
  generalize (start capacity requests).after events = s at *
  constructor
  · have hpushing : 0 < s.calls.countP Call.isPushing :=
      List.countP_pos_iff.mpr ⟨_, List.mem_of_getElem? hcall, rfl⟩
    rw [Weighed] at hweighed
    omega
  · simp [turn, hcall, advance, Entry.step, hclosed, move]

end Traffic

/-- A queue for one request is closed while it is empty. The next request is refused, and it has
opened the breaker. -/
theorem not_spared_of_close :
    let queue := ((Traffic.start 1 []).after [.close]).queue
    let request : Request := { payload := [1], transport := "test", receivedAt := .epoch }
    let left := (queue.enqueue request).2
    (queue.enqueue request).1 = some (.error .closed) ∧ ¬ queue.Spared left
      ∧ queue.isOpen = false ∧ left.isOpen = true ∧ left.trips = 1 ∧ left.waiting = [] := by
  refine ⟨by decide, ?_, by decide, by decide, by decide, by decide⟩
  intro hspared
  exact absurd hspared.isOpen (by decide)

end FieldTelemetry.Intake
