import FieldTelemetry.Intake.Queue

/-!
# Turns at the intake queue

Any number of requests are on their way into the queue, each between two of its steps, and the
consumer takes requests out. Whoever has the turn takes one step. What has happened is written down
beside them.

## Main definitions

* `Traffic`: the queue with the requests on their way and the consumer
* `Traffic.turn`, `Traffic.run`: one step of one of them, and several
* `Traffic.Turned`: all that a turn can do

## Main results

* `Queue.raise_cases`: what a request does that becomes part of the depth
* `Traffic.turned`: a turn does one of the things that a turn can do
-/

namespace FieldTelemetry.Intake

/-! ## Entries -/

namespace Entry

/-- The number of a request, once it has one. -/
def sequence? : Entry → Option Nat
  | .numbered sequence | .pushing sequence | .pushed sequence
  | .done (.ok sequence) => some sequence
  | _ => none

/-- The number of a request that has come into the queue. -/
def entered? : Entry → Option Nat
  | .pushed sequence | .done (.ok sequence) => some sequence
  | _ => none

/-- The request has passed the breaker and has not been accepted yet. -/
def isOnItsWay : Entry → Bool
  | .arriving | .done _ => false
  | _ => true

/-- The request need not wait for a free place: the breaker is closed until it is part of the depth,
and from then on a place is free. -/
def HasPlace (queue : Queue) : Entry → Prop
  | .admitted | .numbered _ => queue.isOpen = false
  | .pushing _ => queue.waiting.length < queue.capacity
  | _ => True

theorem hasPlace_of_not_isOnItsWay {queue : Queue} {entry : Entry} (h : entry.isOnItsWay = false) :
    entry.HasPlace queue := by
  cases entry with
  | arriving => trivial
  | done result => trivial
  | _ => cases h

theorem HasPlace.congr {queue queue' : Queue} {entry : Entry} (h : entry.HasPlace queue)
    (hopen : queue'.isOpen = queue.isOpen) (hcapacity : queue'.capacity = queue.capacity)
    (hwaiting : queue'.waiting.length ≤ queue.waiting.length) : entry.HasPlace queue' := by
  cases entry with
  | admitted => exact hopen.trans h
  | numbered sequence => exact hopen.trans h
  | pushing sequence => exact Nat.lt_of_le_of_lt hwaiting (hcapacity ▸ h)
  | _ => trivial

end Entry

/-! ## Steps of the queue -/

namespace Queue

/-- One more request on its way, before the breaker is asked to open. -/
def lifted (queue : Queue) : Queue :=
  { queue with depth := queue.depth + 1, highWater := max queue.highWater (queue.depth + 1) }

/-- What the breaker answers when a request on its way asks it to open. -/
def tripAnswer? (queue : Queue) : Option Bool :=
  if queue.capacity ≤ queue.lifted.depth then some queue.lifted.trip.1 else none

theorem raise_eq (queue : Queue) :
    queue.raise
      = if queue.capacity ≤ queue.lifted.depth then queue.lifted.trip.2 else queue.lifted :=
  rfl

theorem trip_of_open {queue : Queue} (h : queue.isOpen = true) : queue.trip = (false, queue) :=
  if_pos h

theorem trip_of_closed {queue : Queue} (h : queue.isOpen = false) :
    queue.trip = (true, { queue with isOpen := true, trips := queue.trips + 1 }) :=
  if_neg (by rw [h]; decide)

/-- What a raise changes, and when the breaker opens. -/
theorem raise_cases (queue : Queue) :
    (queue.raise = { queue.lifted with isOpen := true, trips := queue.trips + 1 }
        ∧ queue.tripAnswer? = some true ∧ queue.isOpen = false ∧ queue.capacity ≤ queue.depth + 1)
      ∨ (queue.raise = queue.lifted ∧ queue.tripAnswer? = some false ∧ queue.isOpen = true
        ∧ queue.capacity ≤ queue.depth + 1)
      ∨ (queue.raise = queue.lifted ∧ queue.tripAnswer? = none
        ∧ queue.depth + 1 < queue.capacity) := by
  rw [raise_eq, tripAnswer?]
  by_cases hfull : queue.capacity ≤ queue.lifted.depth
  · rw [if_pos hfull, if_pos hfull]
    cases hopen : queue.lifted.isOpen with
    | false =>
      rw [trip_of_closed hopen]
      exact .inl ⟨rfl, rfl, hopen, hfull⟩
    | true =>
      rw [trip_of_open hopen]
      exact .inr (.inl ⟨rfl, rfl, hopen, hfull⟩)
  · rw [if_neg hfull, if_neg hfull]
    exact .inr (.inr ⟨rfl, rfl, Nat.lt_of_not_le hfull⟩)

theorem exists_raise (queue : Queue) :
    ∃ isOpen trips, queue.raise = { queue.lifted with isOpen, trips } := by
  rcases queue.raise_cases with ⟨hraise, -⟩ | ⟨hraise, -⟩ | ⟨hraise, -⟩
  · exact ⟨_, _, hraise⟩
  · exact ⟨_, _, hraise⟩
  · exact ⟨_, _, hraise⟩

theorem waiting_raise (queue : Queue) : queue.raise.waiting = queue.waiting := by
  obtain ⟨isOpen, trips, hraise⟩ := queue.exists_raise
  rw [hraise]
  rfl

theorem isOpen_raise {queue : Queue} (h : queue.isOpen = true) : queue.raise.isOpen = true := by
  rcases queue.raise_cases with ⟨hraise, -⟩ | ⟨hraise, -⟩ | ⟨hraise, -⟩
  · rw [hraise]
  · rw [hraise]
    exact h
  · rw [hraise]
    exact h

/-- A request has been taken out, and still counts as part of the depth. -/
def pop (queue : Queue) (rest : List Request) : Queue := { queue with waiting := rest }

/-- A request that has been taken out is no part of the depth any more. -/
def lower (queue : Queue) : Queue := { queue with depth := queue.depth - 1 }

/-- A request is counted as handed out. -/
def countOut (queue : Queue) : Queue := { queue with dequeued := queue.dequeued + 1 }

/-- The consumer gets a request in three steps. -/
theorem receive_of_waiting {queue : Queue} {request : Request} {rest : List Request}
    (h : queue.waiting = request :: rest) :
    queue.receive = (.request request, ((queue.pop rest).lower).countOut) := by
  rw [receive, h]
  rfl

end Queue

/-! ## Traffic -/

/-- A request and how far it has come. -/
structure Call where
  /-- What is to be put into the queue. -/
  request : Request
  /-- How far it has come. -/
  entry : Entry := .arriving

/-- The request is part of the depth and not yet in the queue. -/
def Call.isPushing (call : Call) : Bool :=
  match call.entry with
  | .pushing _ => true
  | _ => false

/-- The request is in the queue and not yet counted. -/
def Call.isPushed (call : Call) : Bool :=
  match call.entry with
  | .pushed _ => true
  | _ => false

theorem Call.isOnItsWay_of_isPushing (call : Call) (h : call.isPushing = true) :
    call.entry.isOnItsWay = true := by
  obtain ⟨request, entry⟩ := call
  cases entry <;> first | rfl | cases h

theorem Call.isOnItsWay_of_isPushed (call : Call) (h : call.isPushed = true) :
    call.entry.isOnItsWay = true := by
  obtain ⟨request, entry⟩ := call
  cases entry <;> first | rfl | cases h

/-- One call is replaced in a count. -/
theorem countP_set_add {calls : List Call} {i : Nat} {old : Call} (p : Call → Bool) (new : Call)
    (h : calls[i]? = some old) :
    (calls.set i new).countP p + (p old).toNat = calls.countP p + (p new).toNat := by
  induction calls generalizing i with
  | nil => cases h
  | cons call calls ih =>
    cases i with
    | zero =>
      cases h
      rw [List.set_cons_zero, List.countP_cons, List.countP_cons]
      cases p old <;> cases p new <;> simp
    | succ i =>
      have hrest := ih h
      rw [List.set_cons_succ, List.countP_cons, List.countP_cons]
      omega

/-- What a view of a list shows stays the same when one item is replaced by another that it shows
alike. -/
theorem map_set_of_getElem? {α β : Type} {l : List α} {i : Nat} {old new : α} (view : α → β)
    (h : l[i]? = some old) (hsame : view new = view old) : (l.set i new).map view = l.map view := by
  obtain ⟨hlt, rfl⟩ := List.getElem?_eq_some_iff.mp h
  have hlt' : i < (l.map view).length := by rwa [List.length_map]
  have hview : view l[i] = (l.map view)[i] := (List.getElem_map view).symm
  rw [List.map_set, hsame, hview, List.set_getElem_self]

/-- How far the consumer has come with the next request. -/
inductive Taking
  /-- It has none in hand. -/
  | idle
  /-- It has taken one out, which still counts as part of the depth. -/
  | took (request : Request)
  /-- The depth does not count it any more. -/
  | lowered (request : Request)

/-- The request that the consumer has taken out and not yet handed on. -/
def Taking.inHand : Taking → List Request
  | .idle => []
  | .took request | .lowered request => [request]

/-- How many requests the consumer has taken out that are still part of the depth. -/
def Taking.held : Taking → Nat
  | .took _ => 1
  | _ => 0

/-- The queue, the requests on their way and the consumer. What has happened is written down beside
them, and no step depends on it. -/
structure Traffic where
  /-- The queue with its breaker and its counts. -/
  queue : Queue
  /-- The requests that come to it. -/
  calls : List Call
  /-- How far the consumer is. -/
  taking : Taking := .idle
  /-- The requests that came into the queue, in their order, with the positions of their calls. -/
  entered : List (Nat × Request) := []
  /-- The requests that the consumer has handed on, in their order. -/
  handedOut : List Request := []
  /-- What the breaker has answered when it was asked to open. -/
  answers : List Bool := []

/-- Who has the next turn. -/
inductive Turn
  /-- A request takes its next step. -/
  | call (position : Nat)
  /-- The consumer takes its next step. -/
  | consumer

namespace Traffic

/-- Requests come to an empty queue. -/
def start (capacity : Nat) (requests : List Request) : Traffic where
  queue := .new capacity
  calls := requests.map fun request => { request }

/-- One request takes its next step. -/
def advance (traffic : Traffic) (position : Nat) (call : Call) : Traffic :=
  let (entry, queue) := call.entry.step call.request traffic.queue
  { traffic with
    queue
    calls := traffic.calls.set position { call with entry }
    entered := traffic.entered ++
      match call.entry, entry with
      | .pushing _, .pushed sequence => [(position, { call.request with sequence })]
      | _, _ => []
    answers := traffic.answers ++
      match call.entry with
      | .numbered _ => traffic.queue.tripAnswer?.toList
      | _ => [] }

/-- The consumer takes its next step. -/
def consume (traffic : Traffic) : Traffic :=
  match traffic.taking with
  | .idle =>
    match traffic.queue.waiting with
    | [] => traffic
    | request :: rest => { traffic with queue := traffic.queue.pop rest, taking := .took request }
  | .took request => { traffic with queue := traffic.queue.lower, taking := .lowered request }
  | .lowered request =>
    { traffic with
      queue := traffic.queue.countOut
      taking := .idle
      handedOut := traffic.handedOut ++ [request] }

/-- The next step of whoever has the turn. -/
def turn (traffic : Traffic) : Turn → Traffic
  | .call position =>
    match traffic.calls[position]? with
    | some call => traffic.advance position call
    | none => traffic
  | .consumer => traffic.consume

/-- Several steps, one after the other. -/
def run (traffic : Traffic) (turns : List Turn) : Traffic := turns.foldl turn traffic

@[simp]
theorem run_concat (traffic : Traffic) (turns : List Turn) (next : Turn) :
    traffic.run (turns ++ [next]) = (traffic.run turns).turn next := by
  rw [run, List.foldl_append]
  rfl

/-! ## What a turn does -/

/-- The traffic after a request has taken a step. -/
def move (traffic : Traffic) (position : Nat) (call : Call) (queue : Queue) : Traffic :=
  { traffic with queue, calls := traffic.calls.set position call }

/-- All that a turn can do while the consumer is there. -/
inductive Turned (s : Traffic) : Traffic → Prop
  /-- Nobody can take a step. -/
  | nothing : Turned s s
  /-- The open breaker refuses a request. -/
  | refused {i : Nat} {request : Request} (hcall : s.calls[i]? = some ⟨request, .arriving⟩)
    (hopen : s.queue.isOpen = true) :
    Turned s (s.move i ⟨request, .done (.error .circuitOpen)⟩
      { s.queue with rejected := s.queue.rejected + 1 })
  /-- The breaker lets a request pass. -/
  | admitted {i : Nat} {request : Request} (hcall : s.calls[i]? = some ⟨request, .arriving⟩)
    (hopen : s.queue.isOpen = false) : Turned s (s.move i ⟨request, .admitted⟩ s.queue)
  /-- A request gets its number. -/
  | numbered {i : Nat} {request : Request} (hcall : s.calls[i]? = some ⟨request, .admitted⟩) :
    Turned s (s.move i ⟨request, .numbered (s.queue.numbered + 1)⟩
      { s.queue with numbered := s.queue.numbered + 1 })
  /-- A request raises the depth, and opens the breaker when the depth reaches the capacity. -/
  | raised {i sequence : Nat} {request : Request}
    (hcall : s.calls[i]? = some ⟨request, .numbered sequence⟩) :
    Turned s { s.move i ⟨request, .pushing sequence⟩ s.queue.raise with
      answers := s.answers ++ s.queue.tripAnswer?.toList }
  /-- A request comes in where a place is free. -/
  | pushed {i sequence : Nat} {request : Request}
    (hcall : s.calls[i]? = some ⟨request, .pushing sequence⟩)
    (hfree : s.queue.waiting.length < s.queue.capacity) :
    Turned s { s.move i ⟨request, .pushed sequence⟩
        { s.queue with waiting := s.queue.waiting ++ [{ request with sequence }] } with
      entered := s.entered ++ [(i, { request with sequence })] }
  /-- A request that came in is counted. -/
  | counted {i sequence : Nat} {request : Request}
    (hcall : s.calls[i]? = some ⟨request, .pushed sequence⟩) :
    Turned s (s.move i ⟨request, .done (.ok sequence)⟩
      { s.queue with enqueued := s.queue.enqueued + 1 })
  /-- The consumer takes a request out. -/
  | took {request : Request} {rest : List Request} (htaking : s.taking = .idle)
    (hwaiting : s.queue.waiting = request :: rest) :
    Turned s { s with queue := s.queue.pop rest, taking := .took request }
  /-- It lowers the depth. -/
  | lowered {request : Request} (htaking : s.taking = .took request) :
    Turned s { s with queue := s.queue.lower, taking := .lowered request }
  /-- It hands the request on. -/
  | handedOut {request : Request} (htaking : s.taking = .lowered request) :
    Turned s { s with
      queue := s.queue.countOut
      taking := .idle
      handedOut := s.handedOut ++ [request] }

theorem move_self {s : Traffic} {i : Nat} {call : Call} (hcall : s.calls[i]? = some call) :
    s.move i call s.queue = s := by
  obtain ⟨hlt, rfl⟩ := List.getElem?_eq_some_iff.mp hcall
  rw [move, List.set_getElem_self]

/-- A request that has its place in the depth finds the queue closed or it does not, and any other
takes no notice. -/
theorem turned_advance {s : Traffic} {i : Nat} {call : Call} (hcall : s.calls[i]? = some call)
    (hthere : call.isPushing = true → s.queue.isClosed = false) : s.Turned (s.advance i call) := by
  obtain ⟨request, entry⟩ := call
  cases entry with
  | arriving =>
    cases hopen : s.queue.isOpen with
    | true => simpa [advance, Entry.step, hopen, move] using Turned.refused hcall hopen
    | false => simpa [advance, Entry.step, hopen, move] using Turned.admitted hcall hopen
  | admitted => simpa [advance, Entry.step, move] using Turned.numbered hcall
  | numbered sequence => simpa [advance, Entry.step, move] using Turned.raised hcall
  | pushing sequence =>
    have hopen := hthere rfl
    by_cases hfree : s.queue.waiting.length < s.queue.capacity
    · simpa [advance, Entry.step, hopen, hfree, move] using Turned.pushed hcall hfree
    · have hwaits : s.advance i ⟨request, .pushing sequence⟩ = s := by
        simpa [advance, Entry.step, hopen, hfree, move] using move_self hcall
      rw [hwaits]
      exact .nothing
  | pushed sequence => simpa [advance, Entry.step, move] using Turned.counted hcall
  | done result =>
    have hended : s.advance i ⟨request, .done result⟩ = s := by
      simpa [advance, Entry.step, move] using move_self hcall
    rw [hended]
    exact .nothing

/-- The consumer does one of these things, whether the queue is closed or not. -/
theorem turned_consume (s : Traffic) : s.Turned s.consume := by
  rw [consume]
  cases htaking : s.taking with
  | idle =>
    cases hwaiting : s.queue.waiting with
    | nil => exact .nothing
    | cons request rest => exact .took htaking hwaiting
  | took request => exact .lowered htaking
  | lowered request => exact .handedOut htaking

/-- A turn does one of these things. -/
theorem turned {s : Traffic} (hthere : s.queue.isClosed = false) (turn : Turn) :
    s.Turned (s.turn turn) := by
  cases turn with
  | call i =>
    rw [Traffic.turn]
    cases hcall : s.calls[i]? with
    | none => exact .nothing
    | some call => exact turned_advance hcall fun _ => hthere
  | consumer => exact s.turned_consume

end Traffic

end FieldTelemetry.Intake
