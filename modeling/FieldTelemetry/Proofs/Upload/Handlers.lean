import FieldTelemetry.Proofs.Intake.Enqueue
import FieldTelemetry.Proofs.Upload.Content
import FieldTelemetry.Upload.Endpoint
import Mathlib.Data.List.Induction

/-!
# Handlers of uploads at work

Any number of uploads are handled at the same time, each between two of its steps, and they share
the listener and the queue with everybody else who puts requests into the queue or takes them out.
Whoever has the turn takes one step. Beside each upload is written down what its steps have put into
the queue and how the queue has refused it.

## Main definitions

* `Progress`, `Progress.step`: how far the handler of an upload has come, and its next step
* `Handling`, `Handlers`: an upload with what is written down beside it, and all of them
* `Handlers.happen`, `Handlers.run`: a step of a handler or of anybody else, and several
* `Handling.Truthful`, `Handlers.Accounted`: answers that say what has happened, and counts that fit

## Main results

* `Handling.Sound.next`: what a step of a handler preserves
* `Handlers.upload_alone`: an upload that is handled while nobody else is at work
* `Handlers.accounted_run`: uploads are answered truthfully and counted once
-/

namespace FieldTelemetry.Upload

open Intake (Entry Hints IntakeError Listener Queue Request)
open Time (Instant)

/-! ## Steps -/

/-- How far the handler of an upload has come. -/
inductive Progress
  /-- It has not looked at the upload. -/
  | arriving
  /-- Its request is on its way into the queue. -/
  | entering (request : Request) (entry : Entry)
  /-- It has given an answer. -/
  | answered (answer : Answer)

namespace Progress

/-- The next step of the handler of an upload. -/
def step (header : Header) (body : Octets) (now : Instant) (listener : Listener) (queue : Queue) :
    Progress → Progress × Listener × Queue
  | .arriving =>
    match contentOf header body with
    | .error error => (.answered ⟨400, .text error.message⟩, listener.countError, queue)
    | .ok (payload, hints) =>
      (.entering (requestOf header payload hints now) .arriving, listener, queue)
  | .entering request (.done result) =>
    (.answered (Endpoint.answerTo result), listener.count request result, queue)
  | .entering request entry =>
    let (entry, queue) := entry.step request queue
    (.entering request entry, listener, queue)
  | .answered answer => (.answered answer, listener, queue)

/-- How the queue refuses a request that takes its next step. -/
def refusal? (queue : Queue) : Progress → Option IntakeError
  | .entering _ .arriving => if queue.isOpen then some .circuitOpen else none
  | .entering _ (.pushing _) => if queue.isClosed then some .closed else none
  | _ => none

/-- The request waits for a free place. -/
def waits (queue : Queue) : Progress → Bool
  | .entering _ (.pushing _) => !queue.isClosed && !decide (queue.waiting.length < queue.capacity)
  | _ => false

/-- How many steps are left, if the request does not wait for a free place. -/
def left : Progress → Nat
  | .arriving => 7
  | .entering _ .arriving => 6
  | .entering _ .admitted => 5
  | .entering _ (.numbered _) => 4
  | .entering _ (.pushing _) => 3
  | .entering _ (.pushed _) => 2
  | .entering _ (.done _) => 1
  | .answered _ => 0

/-- The answer, if there is one. -/
def answer? : Progress → Option Answer
  | .answered answer => some answer
  | _ => none

end Progress

/-- An upload and how far its handler has come. What has happened is written down beside it, and no
step depends on it. -/
structure Handling where
  /-- The fields in front of the body. -/
  header : Header
  /-- What is uploaded. -/
  body : Octets
  /-- How far the handler has come. -/
  progress : Progress := .arriving
  /-- The requests that its steps have put into the queue. -/
  entered : List Request := []
  /-- How the queue has refused it. -/
  refusals : List IntakeError := []
  /-- How many turns it has had without waiting for a free place. -/
  turns : Nat := 0

/-- The uploads that are handled by one listener. -/
structure Handlers where
  /-- The counts of the listener. -/
  listener : Listener := {}
  /-- The queue that all handlers share. -/
  queue : Queue
  /-- The uploads, in the order in which they came. -/
  handlings : List Handling

/-- Whoever has the next turn. -/
inductive Event
  /-- The handler of an upload takes its next step. -/
  | upload (position : Nat) (now : Instant)
  /-- Somebody else does something to the queue. -/
  | others (queue : Queue)

namespace Handling

/-- The upload after the next step of its handler. -/
def next (handling : Handling) (now : Instant) (listener : Listener) (queue : Queue) : Handling :=
  let (progress, _, after) :=
    handling.progress.step handling.header handling.body now listener queue
  { handling with
    progress
    entered := handling.entered ++ after.waiting.drop queue.waiting.length
    refusals := handling.refusals ++ (handling.progress.refusal? queue).toList
    turns := if handling.progress.waits queue then handling.turns else handling.turns + 1 }

end Handling

namespace Handlers

/-- Uploads come to a listener that has counted nothing, at any queue. -/
def start (queue : Queue) (uploads : List (Header × Octets)) : Handlers where
  queue
  handlings := uploads.map fun (header, body) => { header, body }

/-- The handler of an upload takes its next step. -/
def advance (s : Handlers) (position : Nat) (handling : Handling) (now : Instant) : Handlers :=
  let (_, listener, queue) :=
    handling.progress.step handling.header handling.body now s.listener s.queue
  { listener, queue, handlings := s.handlings.set position (handling.next now s.listener s.queue) }

/-- One turn. -/
def happen (s : Handlers) : Event → Handlers
  | .upload position now =>
    match s.handlings[position]? with
    | some handling => s.advance position handling now
    | none => s
  | .others queue => { s with queue }

/-- Several turns. -/
def run (s : Handlers) (events : List Event) : Handlers := events.foldl happen s

theorem run_concat (s : Handlers) (events : List Event) (last : Event) :
    s.run (events ++ [last]) = (s.run events).happen last := by
  rw [run, List.foldl_append]
  rfl

end Handlers

/-! ## What a step does -/

/-- How a request was refused. -/
def refusedOf : Entry → List IntakeError
  | .done (.error error) => [error]
  | _ => []

/-- A request as it has come into the queue. -/
def enteredOf (request : Request) (entry : Entry) : List Request :=
  (entry.entered?.map fun sequence => { request with sequence }).toList

/-- A step of a request puts it into the queue when it comes in, and nothing else. -/
theorem enteredOf_step (request : Request) (entry : Entry) (queue : Queue) :
    enteredOf request (entry.step request queue).1 = enteredOf request entry
      ++ (entry.step request queue).2.waiting.drop queue.waiting.length := by
  cases entry with
  | arriving => cases hopen : queue.isOpen <;> simp [Entry.step, hopen, enteredOf, Entry.entered?]
  | admitted => simp [Entry.step, enteredOf, Entry.entered?]
  | numbered sequence => simp [Entry.step, enteredOf, Entry.entered?, Queue.waiting_raise]
  | pushing sequence =>
    cases hclosed : queue.isClosed with
    | true => simp [Entry.step, hclosed, enteredOf, Entry.entered?]
    | false =>
      by_cases hfree : queue.waiting.length < queue.capacity <;>
        simp [Entry.step, hclosed, hfree, enteredOf, Entry.entered?]
  | pushed sequence => simp [Entry.step, enteredOf, Entry.entered?]
  | done result => simp [Entry.step]

/-- A request is refused by the step that the queue refuses. -/
theorem refusedOf_step (request : Request) (entry : Entry) (queue : Queue) :
    refusedOf (entry.step request queue).1
      = refusedOf entry ++ ((Progress.entering request entry).refusal? queue).toList := by
  cases entry with
  | arriving =>
    cases hopen : queue.isOpen <;> simp [Entry.step, hopen, refusedOf, Progress.refusal?]
  | pushing sequence =>
    cases hclosed : queue.isClosed with
    | true => simp [Entry.step, hclosed, refusedOf, Progress.refusal?]
    | false =>
      by_cases hfree : queue.waiting.length < queue.capacity <;>
        simp [Entry.step, hclosed, hfree, refusedOf, Progress.refusal?]
  | _ => simp [Entry.step, refusedOf, Progress.refusal?]

/-- A handler whose request does not wait for a free place comes a step closer to its answer. -/
theorem Progress.left_step (header : Header) (body : Octets) (now : Instant) (listener : Listener)
    (queue : Queue) (progress : Progress) :
    (progress.step header body now listener queue).1.left
      ≤ progress.left - if progress.waits queue then 0 else 1 := by
  cases progress with
  | arriving =>
    rw [step]
    cases contentOf header body <;> simp [left, waits]
  | entering request entry =>
    cases entry with
    | arriving => cases hopen : queue.isOpen <;> simp [step, Entry.step, hopen, left, waits]
    | pushing sequence =>
      cases hclosed : queue.isClosed with
      | true => simp [step, Entry.step, hclosed, left, waits]
      | false =>
        by_cases hfree : queue.waiting.length < queue.capacity <;>
          simp [step, Entry.step, hclosed, hfree, left, waits]
    | _ => simp [step, Entry.step, left, waits]
  | answered answer => simp [step, left]

theorem Progress.isSome_answer?_of_left {progress : Progress} (h : progress.left = 0) :
    progress.answer?.isSome = true := by
  cases progress with
  | arriving => cases h
  | entering request entry => cases entry <;> cases h
  | answered answer => rfl

/-! ## Several steps -/

namespace Progress

variable {header : Header} {body : Octets} {now : Instant} {listener : Listener} {queue : Queue}

/-- Several steps of a handler while nobody else is at work. -/
def steps (header : Header) (body : Octets) (now : Instant) :
    Nat → Progress → Listener → Queue → Progress × Listener × Queue
  | 0, progress, listener, queue => (progress, listener, queue)
  | n + 1, progress, listener, queue =>
    let (progress, listener, queue) := progress.step header body now listener queue
    progress.steps header body now n listener queue

/-- A step of a request that is not done. -/
theorem step_entering {request : Request} {entry : Entry} (h : ∀ result, entry ≠ .done result) :
    (entering request entry).step header body now listener queue
      = (.entering request (entry.step request queue).1, listener,
        (entry.step request queue).2) := by
  cases entry with
  | done result => exact absurd rfl (h result)
  | _ => rfl

theorem steps_answered (n : Nat) (answer : Answer) :
    (answered answer).steps header body now n listener queue
      = (answered answer, listener, queue) := by
  induction n with
  | zero => rfl
  | succ n ih => exact ih

theorem steps_done (request : Request) (n : Nat) (result : Except IntakeError Nat) :
    (Entry.done result).steps request n queue = (.done result, queue) := by
  induction n with
  | zero => rfl
  | succ n ih => exact ih

theorem steps_succ_entering {request : Request} {entry : Entry}
    (h : ∀ result, entry ≠ .done result) (n : Nat) :
    (entering request entry).steps header body now (n + 1) listener queue
      = (entering request (entry.step request queue).1).steps header body now n listener
        (entry.step request queue).2 := by
  rw [steps, step_entering h]

/-- The handler of a request takes the steps of the request, and answers when it is done. -/
theorem steps_entering_of_done {request : Request} {entry : Entry} {n : Nat} {after : Queue}
    {result : Except IntakeError Nat} (h : entry.steps request n queue = (.done result, after)) :
    (entering request entry).steps header body now (n + 1) listener queue
      = (answered (Endpoint.answerTo result), listener.count request result, after) := by
  induction n generalizing entry queue with
  | zero =>
    cases h
    rfl
  | succ n ih =>
    by_cases hdone : ∃ result, entry = .done result
    · obtain ⟨result, rfl⟩ := hdone
      rw [steps_done] at h
      cases h
      exact steps_answered (n + 1) _
    · rw [steps_succ_entering (not_exists.mp hdone)]
      exact ih h

theorem steps_entering_of_not_done {request : Request} {entry entry' : Entry} {n : Nat}
    {after : Queue} (h : entry.steps request n queue = (entry', after))
    (hwaits : ∀ result, entry' ≠ .done result) :
    (entering request entry).steps header body now n listener queue
      = (entering request entry', listener, after) := by
  induction n generalizing entry queue with
  | zero =>
    cases h
    rfl
  | succ n ih =>
    -- Once it is done, a request stays done.
    have hnot : ∀ result, entry ≠ .done result := by
      rintro result rfl
      rw [steps_done] at h
      cases h
      exact hwaits result rfl
    rw [steps_succ_entering hnot]
    exact ih h

/-- Seven steps lead to the answer of the endpoint, or six to a request that waits for a place. -/
theorem steps_arriving (endpoint : Endpoint) (header : Header) (body : Octets) (now : Instant) :
    (∃ answer after, endpoint.upload header body now = (some answer, after)
        ∧ arriving.steps header body now 7 endpoint.listener endpoint.queue
          = (answered answer, after.listener, after.queue))
      ∨ ∃ request entry after, endpoint.upload header body now = (none, after)
        ∧ arriving.steps header body now 6 endpoint.listener endpoint.queue
          = (entering request entry, after.listener, after.queue) := by
  cases hcontent : contentOf header body with
  | error error =>
    refine .inl ⟨_, _, by rw [Endpoint.upload, hcontent], ?_⟩
    rw [steps, step, hcontent]
    exact steps_answered 6 _
  | ok content =>
    obtain ⟨payload, hints⟩ := content
    rw [Endpoint.upload_of_contentOf hcontent, Endpoint.submitted, Listener.submit, Queue.enqueue]
    have hfirst (n : Nat) : arriving.steps header body now (n + 1) endpoint.listener endpoint.queue
        = (entering (requestOf header payload hints now) .arriving).steps header body now n
          endpoint.listener endpoint.queue := by
      rw [steps, step, hcontent]
    rw [hfirst, hfirst]
    generalize requestOf header payload hints now = request
    generalize hentry : Entry.arriving.steps request 5 endpoint.queue = entered
    obtain ⟨entry, after⟩ := entered
    cases entry with
    | done result => exact .inl ⟨_, _, rfl, steps_entering_of_done hentry⟩
    | _ =>
      refine .inr ⟨_, _, _, rfl, steps_entering_of_not_done hentry ?_⟩
      intro result hdone
      cases hdone

end Progress

/-! ## One upload -/

/-- An upload makes a request. -/
def Makes (header : Header) (body : Octets) (request : Request) : Prop :=
  ∃ payload hints now, contentOf header body = .ok (payload, hints)
    ∧ request = requestOf header payload hints now

/-- What is written down beside an upload is what has happened. -/
inductive Handling.Sound : Handling → Prop
  /-- An upload that has arrived has left nothing behind. -/
  | arriving {header : Header} {body : Octets} {turns : Nat} :
    Sound ⟨header, body, .arriving, [], [], turns⟩
  /-- Its request has come into the queue, or has been refused, when its entry says so. -/
  | entering {header : Header} {body : Octets} {request : Request} {entry : Entry} {turns : Nat}
    (hmakes : Makes header body request) :
    Sound ⟨header, body, .entering request entry, enteredOf request entry, refusedOf entry, turns⟩
  /-- An upload that makes no request is answered with its error, and leaves nothing behind. -/
  | bad {header : Header} {body : Octets} {error : UploadError} {turns : Nat}
    (hcontent : contentOf header body = .error error) :
    Sound ⟨header, body, .answered ⟨400, .text error.message⟩, [], [], turns⟩
  /-- Another one is answered with what became of its request. -/
  | answered {header : Header} {body : Octets} {request : Request}
    {result : Except IntakeError Nat} {turns : Nat} (hmakes : Makes header body request) :
    Sound ⟨header, body, .answered (Endpoint.answerTo result), enteredOf request (.done result),
      refusedOf (.done result), turns⟩

/-- What is written down is true after a step if it was before. -/
theorem Handling.Sound.next {handling : Handling} (h : handling.Sound) (now : Instant)
    (listener : Listener) (queue : Queue) : (handling.next now listener queue).Sound := by
  cases h with
  | @arriving header body turns =>
    cases hcontent : contentOf header body with
    | error error =>
      simpa [Handling.next, Progress.step, hcontent, Progress.refusal?] using bad hcontent
    | ok content =>
      obtain ⟨payload, hints⟩ := content
      have hentering : Sound ⟨header, body,
          .entering (requestOf header payload hints now) .arriving, [], [], turns + 1⟩ :=
        entering ⟨payload, hints, now, hcontent, rfl⟩
      simpa [Handling.next, Progress.step, hcontent, Progress.refusal?, Progress.waits]
        using hentering
  | @entering header body request entry turns hmakes =>
    -- A request that is done is answered, and any other takes a step of its own.
    by_cases hdone : ∃ result, entry = .done result
    · obtain ⟨result, rfl⟩ := hdone
      simpa [Handling.next, Progress.step, Progress.refusal?] using answered hmakes
    · rw [Handling.next, Progress.step_entering (not_exists.mp hdone)]
      simp only [← enteredOf_step, ← refusedOf_step]
      exact entering hmakes
  | bad hcontent =>
    simpa [Handling.next, Progress.step, Progress.refusal?] using bad hcontent
  | answered hmakes =>
    simpa [Handling.next, Progress.step, Progress.refusal?] using answered hmakes

/-! ## Counts -/

/-- What two listeners have counted together. -/
def plus (a b : Listener) : Listener :=
  ⟨a.received + b.received, a.bytes + b.bytes, a.rejected + b.rejected, a.errors + b.errors⟩

theorem plus_right_cancel {a b c : Listener} (h : plus a c = plus b c) : a = b := by
  obtain ⟨_, _, _, _⟩ := a
  obtain ⟨_, _, _, _⟩ := b
  simp only [plus, Listener.mk.injEq] at h ⊢
  omega

namespace Handling

/-- The upload has its answer. -/
def isAnswered (handling : Handling) : Bool := handling.progress.answer?.isSome

/-- What an upload adds to the counts once it has its answer. -/
def share (handling : Handling) : Listener :=
  if handling.isAnswered then
    { received := handling.entered.length
      bytes := (handling.entered.map fun request => request.payload.length).sum
      rejected := handling.refusals.length
      errors := if handling.entered = [] ∧ handling.refusals = [] then 1 else 0 }
  else {}

theorem share_of_not_isAnswered {handling : Handling} (h : handling.isAnswered = false) :
    handling.share = {} := by
  rw [share, h]
  rfl

/-- The listener counts an upload when it gets its answer. -/
theorem Sound.share_next {handling : Handling} (h : handling.Sound) (now : Instant)
    (listener : Listener) (queue : Queue) :
    plus (handling.progress.step handling.header handling.body now listener queue).2.1
      handling.share = plus listener (handling.next now listener queue).share := by
  cases h with
  | @arriving header body turns =>
    cases hcontent : contentOf header body <;>
      simp [Handling.next, Progress.step, hcontent, Progress.refusal?, share, isAnswered,
        Progress.answer?, plus, Listener.countError]
  | @entering header body request entry turns hmakes =>
    by_cases hdone : ∃ result, entry = .done result
    · obtain ⟨_ | sequence, rfl⟩ := hdone <;>
        simp [Handling.next, Progress.step, Progress.refusal?, share, isAnswered,
          Progress.answer?, plus, Listener.count, enteredOf, refusedOf, Entry.entered?]
    · -- Neither before nor after this step has the upload been counted.
      rw [share_of_not_isAnswered rfl, share_of_not_isAnswered]
      · rw [Progress.step_entering (not_exists.mp hdone)]
      · rw [Handling.next, Progress.step_entering (not_exists.mp hdone)]
        rfl
  | _ => simp [Handling.next, Progress.step, Progress.refusal?, share, isAnswered, Progress.answer?]

end Handling

/-- What uploads have added to the counts. -/
def shares : List Handling → Listener
  | [] => {}
  | handling :: handlings => plus handling.share (shares handlings)

theorem shares_of_none {handlings : List Handling}
    (h : ∀ handling ∈ handlings, handling.isAnswered = false) : shares handlings = {} := by
  induction handlings with
  | nil => rfl
  | cons handling handlings ih =>
    rw [List.forall_mem_cons] at h
    rw [shares, Handling.share_of_not_isAnswered h.1, ih h.2]
    rfl

theorem shares_set {handlings : List Handling} {i : Nat} {old : Handling} (new : Handling)
    (h : handlings[i]? = some old) :
    plus (shares (handlings.set i new)) old.share = plus (shares handlings) new.share := by
  induction handlings generalizing i with
  | nil => cases h
  | cons handling handlings ih =>
    cases i with
    | zero =>
      cases h
      simp only [List.set_cons_zero, shares, plus, Listener.mk.injEq]
      omega
    | succ i =>
      have hrest := ih h
      simp only [plus, Listener.mk.injEq] at hrest
      simp only [List.set_cons_succ, shares, plus, Listener.mk.injEq]
      omega

/-! ## All uploads -/

/-- What is written down beside every upload is true, and the listener has counted those that have
their answer. -/
structure Handlers.Sound (uploads : List (Header × Octets)) (s : Handlers) : Prop where
  /-- The handlers have the uploads that came, in their order. -/
  came : s.handlings.map (fun handling => (handling.header, handling.body)) = uploads
  /-- What is written down beside each of them is true. -/
  sound : ∀ handling ∈ s.handlings, handling.Sound
  /-- Every turn without waiting leaves one step less of at most seven. -/
  left_le : ∀ handling ∈ s.handlings, handling.progress.left ≤ 7 - handling.turns
  /-- The listener has counted what the uploads add up to. -/
  listener : s.listener = shares s.handlings

namespace Handlers

variable {uploads : List (Header × Octets)} {s : Handlers}

theorem sound_start (queue : Queue) (uploads : List (Header × Octets)) :
    (start queue uploads).Sound uploads := by
  have hnew (handling : Handling) (hmem : handling ∈ (start queue uploads).handlings) :
      ∃ header body, handling = { header, body } := by
    obtain ⟨⟨header, body⟩, -, hnew⟩ := List.mem_map.mp hmem
    exact ⟨header, body, hnew.symm⟩
  refine ⟨?_, ?_, ?_, ?_⟩
  · simp [start, Function.comp_def]
  · intro handling hmem
    obtain ⟨header, body, rfl⟩ := hnew handling hmem
    exact .arriving
  · intro handling hmem
    obtain ⟨header, body, rfl⟩ := hnew handling hmem
    exact le_rfl
  · refine (shares_of_none fun handling hmem => ?_).symm
    obtain ⟨header, body, rfl⟩ := hnew handling hmem
    rfl

theorem Sound.happen (h : s.Sound uploads) (event : Event) : (s.happen event).Sound uploads := by
  cases event with
  | others queue => exact ⟨h.came, h.sound, h.left_le, h.listener⟩
  | upload position now =>
    rw [Handlers.happen]
    cases hhandling : s.handlings[position]? with
    | none => exact h
    | some handling =>
      have hmem := List.mem_of_getElem? hhandling
      have hsound := h.sound handling hmem
      have hleft := h.left_le handling hmem
      have hstep := Progress.left_step handling.header handling.body now s.listener s.queue
        handling.progress
      refine ⟨?_, ?_, ?_, ?_⟩
      · rw [← h.came]
        exact Intake.map_set_of_getElem? _ hhandling rfl
      · intro other hother
        obtain hother | rfl := List.mem_or_eq_of_mem_set hother
        · exact h.sound other hother
        · exact hsound.next now s.listener s.queue
      · intro other hother
        obtain hother | rfl := List.mem_or_eq_of_mem_set hother
        · exact h.left_le other hother
        · simp only [Handling.next]
          split_ifs at hstep ⊢ <;> omega
      · -- What the other uploads have added stays the same.
        have hset := shares_set (handling.next now s.listener s.queue) hhandling
        rw [← h.listener] at hset
        apply plus_right_cancel
        exact (hsound.share_next now s.listener s.queue).trans hset.symm

theorem sound_run (queue : Queue) (uploads : List (Header × Octets)) (events : List Event) :
    ((start queue uploads).run events).Sound uploads := by
  induction events using List.reverseRecOn with
  | nil => exact sound_start queue uploads
  | append_singleton events last ih =>
    rw [run_concat]
    exact ih.happen last

end Handlers

/-! ## Answers -/

/-- The answer to an upload that was accepted under a number. -/
def accepted (sequence : Nat) : Answer := ⟨202, .json (.ofMembers [("sequence", .ofNat sequence)])⟩

/-- The answer to an upload that the queue refused. -/
def unavailable (error : IntakeError) : Answer := ⟨503, .text (Endpoint.refusal error)⟩

theorem accepted_inj {n m : Nat} : accepted n = accepted m ↔ n = m := by
  constructor
  · intro h
    have hdigits : Text.digits n = Text.digits m := by
      simpa [accepted, Json.ofMembers, Json.ofNat, Json.Numeral.ofNat] using h
    rw [← Text.value_digits n, hdigits, Text.value_digits]
  · rintro rfl
    rfl

theorem unavailable_inj {error error' : IntakeError} :
    unavailable error = unavailable error' ↔ error = error' := by
  cases error <;> cases error' <;> simp [unavailable, Endpoint.refusal]

namespace Handling

/-- The steps of an upload have put one request into the queue, under a number: it has the payload
that the upload carries, what the upload says about the gateway, filled from the header, and the
label of the client. -/
def Enqueued (handling : Handling) (sequence : Nat) : Prop :=
  ∃ payload own filled now, Carries handling.header handling.body payload own
    ∧ Filled own (hintsOf handling.header) filled
    ∧ handling.entered = [{ requestOf handling.header payload filled now with sequence }]

/-- The answer says what has happened to an upload. -/
structure Truthful (handling : Handling) (answer : Answer) : Prop where
  /-- There are three kinds of answers. -/
  kind : (∃ sequence, answer = accepted sequence)
    ∨ (∃ error : UploadError, answer = ⟨400, .text error.message⟩)
    ∨ ∃ error, answer = unavailable error
  /-- The upload is accepted under a number exactly when its request was enqueued under it. -/
  accepted_iff : ∀ sequence, answer = accepted sequence ↔ handling.Enqueued sequence
  /-- The fault is with the client exactly when nothing can be decoded or the payload is empty. -/
  bad_iff : answer.status = 400
    ↔ (∀ payload own, ¬ Carries handling.header handling.body payload own)
      ∨ ∃ own, Carries handling.header handling.body [] own
  /-- The upload is refused exactly when the queue has refused it, and so it is called. -/
  unavailable_iff : ∀ error, answer = unavailable error ↔ handling.refusals = [error]
  /-- Only an upload that is accepted puts anything into the queue. -/
  entered : answer.status ≠ 202 → handling.entered = []

variable {handling : Handling} {request : Request}

theorem Enqueued.of_makes {sequence : Nat} (h : Makes handling.header handling.body request)
    (hentered : handling.entered = [{ request with sequence }]) : handling.Enqueued sequence := by
  obtain ⟨payload, hints, now, hcontent, rfl⟩ := h
  obtain ⟨-, own, hcarries, rfl⟩ := contentOf_eq_ok_iff.mp hcontent
  exact ⟨payload, own, _, now, hcarries, filled_orElse _ _, hentered⟩

theorem Enqueued.eq_of_entered {n m : Nat} (h : handling.Enqueued n)
    (hentered : handling.entered = [{ request with sequence := m }]) : m = n := by
  obtain ⟨payload, own, filled, now, -, -, hentered'⟩ := h
  have hsame := List.head_eq_of_cons_eq (hentered.symm.trans hentered')
  exact congrArg Request.sequence hsame

theorem not_enqueued (h : handling.entered = []) (sequence : Nat) :
    ¬ handling.Enqueued sequence := by
  rintro ⟨payload, own, filled, now, -, -, hentered⟩
  rw [h] at hentered
  cases hentered

/-- An upload with content has one of the answers that depend on the queue. -/
theorem truthful_of_makes {result : Except IntakeError Nat}
    (h : Makes handling.header handling.body request)
    (hentered : handling.entered = enteredOf request (.done result))
    (hrefusals : handling.refusals = refusedOf (.done result)) :
    handling.Truthful (Endpoint.answerTo result) := by
  have hcontent : ¬ ∃ error, contentOf handling.header handling.body = .error error := by
    obtain ⟨payload, hints, now, hcontent, -⟩ := h
    simp [hcontent]
  rw [exists_contentOf_error_iff] at hcontent
  cases result with
  | ok sequence =>
    refine ⟨.inl ⟨sequence, rfl⟩, ?_, iff_of_false nofun hcontent, ?_, fun h => absurd rfl h⟩
    · intro other
      refine accepted_inj.trans ⟨?_, fun henqueued => henqueued.eq_of_entered hentered⟩
      rintro rfl
      exact .of_makes h hentered
    · intro error
      rw [hrefusals]
      exact iff_of_false (fun hsame => nomatch congrArg Answer.status hsame) nofun
  | error error =>
    refine ⟨.inr (.inr ⟨error, rfl⟩), ?_, iff_of_false nofun hcontent, ?_, fun _ => hentered⟩
    · intro sequence
      exact iff_of_false (fun hsame => nomatch congrArg Answer.status hsame)
        (not_enqueued hentered sequence)
    · intro other
      rw [hrefusals, refusedOf, List.cons.injEq, and_iff_left rfl]
      exact unavailable_inj

/-- An upload without content is the fault of the client. -/
theorem truthful_of_error {error : UploadError}
    (hcontent : contentOf handling.header handling.body = .error error)
    (hentered : handling.entered = []) (hrefusals : handling.refusals = []) :
    handling.Truthful ⟨400, .text error.message⟩ := by
  refine ⟨.inr (.inl ⟨error, rfl⟩), ?_, ?_, ?_, fun _ => hentered⟩
  · intro sequence
    exact iff_of_false (fun hsame => nomatch congrArg Answer.status hsame)
      (not_enqueued hentered sequence)
  · exact iff_of_true rfl (exists_contentOf_error_iff.mp ⟨error, hcontent⟩)
  · intro other
    rw [hrefusals]
    exact iff_of_false (fun hsame => nomatch congrArg Answer.status hsame) nofun

theorem Sound.truthful (h : handling.Sound) {answer : Answer}
    (hanswer : handling.progress = .answered answer) : handling.Truthful answer := by
  cases h with
  | arriving => cases hanswer
  | entering hmakes => cases hanswer
  | bad hcontent =>
    cases hanswer
    exact truthful_of_error hcontent rfl rfl
  | answered hmakes =>
    cases hanswer
    exact truthful_of_makes hmakes rfl rfl

/-- An upload that has its answer is counted once: as accepted, as refused, or as an error. -/
theorem Sound.share_total (h : handling.Sound) :
    handling.share.received + handling.share.rejected + handling.share.errors
      = if handling.isAnswered then 1 else 0 := by
  cases h with
  | @answered header body request result turns hmakes =>
    cases result <;>
      simp [share, isAnswered, Progress.answer?, enteredOf, refusedOf, Entry.entered?]
  | _ => simp [share, isAnswered, Progress.answer?]

end Handling

/-! ## Counts that fit -/

section Shares

variable {handlings : List Handling}

theorem total_shares (h : ∀ handling ∈ handlings, handling.Sound) :
    (shares handlings).received + (shares handlings).rejected + (shares handlings).errors
      = handlings.countP Handling.isAnswered := by
  induction handlings with
  | nil => rfl
  | cons handling handlings ih =>
    rw [List.forall_mem_cons] at h
    have hfirst := h.1.share_total
    have hrest := ih h.2
    rw [List.countP_cons, shares, plus]
    dsimp only
    omega

/-- The requests that answered uploads have put into the queue. -/
def enteredBy (handlings : List Handling) : List Request :=
  (handlings.filter Handling.isAnswered).flatMap Handling.entered

theorem received_shares (handlings : List Handling) :
    (shares handlings).received = (enteredBy handlings).length
      ∧ (shares handlings).bytes
        = ((enteredBy handlings).map fun request => request.payload.length).sum := by
  induction handlings with
  | nil => exact ⟨rfl, rfl⟩
  | cons handling handlings ih =>
    obtain ⟨hreceived, hbytes⟩ := ih
    cases hanswered : handling.isAnswered <;>
      simp [shares, plus, enteredBy, Handling.share, hanswered, hreceived, hbytes]

end Shares

namespace Handlers

/-- Uploads are answered truthfully and counted once. -/
structure Accounted (uploads : List (Header × Octets)) (s : Handlers) : Prop where
  /-- The uploads are those that came. -/
  came : s.handlings.map (fun handling => (handling.header, handling.body)) = uploads
  /-- Every answer says what has happened. -/
  truthful : ∀ handling ∈ s.handlings, ∀ answer, handling.progress = .answered answer →
    handling.Truthful answer
  /-- An upload has its answer after seven turns in which it does not wait for a free place. -/
  answered : ∀ handling ∈ s.handlings, 7 ≤ handling.turns → handling.isAnswered = true
  /-- Every answer is counted once, as an acceptance, a refusal or an error. -/
  total : s.listener.received + s.listener.rejected + s.listener.errors
    = s.handlings.countP Handling.isAnswered
  /-- The acceptances are the requests that were enqueued. -/
  received : s.listener.received = (enteredBy s.handlings).length
  /-- The octets are those of their payloads. -/
  bytes : s.listener.bytes
    = ((enteredBy s.handlings).map fun request => request.payload.length).sum
  /-- When all uploads have their answers, the counts are those of all uploads and of all requests
  that their steps have put into the queue. -/
  finished : (∀ handling ∈ s.handlings, handling.isAnswered = true) →
    s.listener.received + s.listener.rejected + s.listener.errors = uploads.length
      ∧ s.listener.received = (s.handlings.flatMap Handling.entered).length
      ∧ s.listener.bytes
        = ((s.handlings.flatMap Handling.entered).map fun request => request.payload.length).sum

theorem Sound.accounted {uploads : List (Header × Octets)} {s : Handlers} (h : s.Sound uploads) :
    s.Accounted uploads := by
  obtain ⟨hreceived, hbytes⟩ := received_shares s.handlings
  have htotal := total_shares h.sound
  rw [← h.listener] at hreceived hbytes htotal
  refine ⟨h.came, fun handling hmem _ => (h.sound handling hmem).truthful, ?_, htotal, hreceived,
    hbytes, ?_⟩
  · intro handling hmem hturns
    have hleft := h.left_le handling hmem
    exact Progress.isSome_answer?_of_left (by omega)
  · intro hall
    have hlength : s.handlings.length = uploads.length := by rw [← h.came, List.length_map]
    rw [enteredBy, List.filter_eq_self.mpr hall] at hreceived hbytes
    rw [List.countP_eq_length.mpr hall, hlength] at htotal
    exact ⟨htotal, hreceived, hbytes⟩

/-! ### An upload alone -/

/-- A handler that has all turns takes its steps one after the other. -/
theorem run_replicate (handling : Handling) (now : Instant) (n : Nat) (listener : Listener)
    (queue : Queue) : ∃ left : Handling,
      (Handlers.mk listener queue [handling]).run (List.replicate n (.upload 0 now))
          = ⟨(handling.progress.steps handling.header handling.body now n listener queue).2.1,
            (handling.progress.steps handling.header handling.body now n listener queue).2.2,
            [left]⟩
        ∧ left.progress
          = (handling.progress.steps handling.header handling.body now n listener queue).1 := by
  induction n generalizing handling listener queue with
  | zero => exact ⟨handling, rfl, rfl⟩
  | succ n ih => exact ih (handling.next now listener queue) _ _

/-- The handler of an upload that has all turns does what the endpoint does: it gives the same
answer after seven turns, or its request waits for a free place after six. -/
theorem upload_alone (endpoint : Endpoint) (header : Header) (body : Octets) (now : Instant) :
    let alone (turns : Nat) : Handlers :=
      (Handlers.mk endpoint.listener endpoint.queue [{ header, body }]).run
        (List.replicate turns (.upload 0 now))
    (∃ answer after left, endpoint.upload header body now = (some answer, after)
        ∧ alone 7 = ⟨after.listener, after.queue, [left]⟩ ∧ left.progress = .answered answer)
      ∨ ∃ request entry after left, endpoint.upload header body now = (none, after)
        ∧ alone 6 = ⟨after.listener, after.queue, [left]⟩
        ∧ left.progress = .entering request entry := by
  rcases Progress.steps_arriving endpoint header body now
    with ⟨answer, after, hupload, hsteps⟩ | ⟨request, entry, after, hupload, hsteps⟩
  · obtain ⟨left, hrun, hleft⟩ :=
      run_replicate { header, body } now 7 endpoint.listener endpoint.queue
    rw [hsteps] at hrun hleft
    exact .inl ⟨answer, after, left, hupload, hrun, hleft⟩
  · obtain ⟨left, hrun, hleft⟩ :=
      run_replicate { header, body } now 6 endpoint.listener endpoint.queue
    rw [hsteps] at hrun hleft
    exact .inr ⟨request, entry, after, left, hupload, hrun, hleft⟩

/-! ### Uploads among others -/

/-- What becomes of any uploads at any queue, whatever happens between their steps. -/
theorem accounted_run (queue : Queue) (uploads : List (Header × Octets)) (events : List Event) :
    ((start queue uploads).run events).Accounted uploads :=
  (sound_run queue uploads events).accounted

end Handlers

end FieldTelemetry.Upload
