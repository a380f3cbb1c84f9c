import FieldTelemetry.Intake.Datagram
import FieldTelemetry.Proofs.Intake.Enqueue
import Mathlib.Data.List.Induction

/-!
# Datagrams on their way into the queue

A listener for datagrams has one buffer. Every datagram overwrites it from the front, and the octets
that do not fit are lost. The listener makes a request of as many octets of the buffer as the system
says were stored, so a datagram that fits is queued whole. Of a longer one the front part is queued.

## Main definitions

* `overwrite`: a datagram that is stored to a buffer
* `Reception.round`, `Reception.run`: what a listener does with what the system hands to it
* `QueuedWhole`: the datagrams that fit are queued whole, and no others are
* `Queued`: what becomes of datagrams while the queue accepts

## Main results

* `take_overwrite`: the octets of the buffer that belong to a datagram
* `Reception.listener_run`: the listener does what it does without a buffer of its own
* `Reception.queued_run`: datagrams are queued up to the size of the buffer
-/

namespace FieldTelemetry.Intake

open Net (Address)
open Time (Instant)

/-! ## The buffer -/

/-- A datagram that is stored to a buffer: how many of its octets were stored, and the buffer. What
was in the buffer behind them is still there. -/
def overwrite (buffer datagram : Octets) : Nat × Octets :=
  (min datagram.length buffer.length, datagram.take buffer.length ++ buffer.drop datagram.length)

theorem length_overwrite (buffer datagram : Octets) :
    (overwrite buffer datagram).2.length = buffer.length := by
  simp only [overwrite, List.length_append, List.length_take, List.length_drop]
  omega

/-- Nothing of an earlier datagram is taken for a part of this one. -/
theorem take_overwrite (buffer datagram : Octets) :
    (overwrite buffer datagram).2.take (overwrite buffer datagram).1
      = datagram.take buffer.length := by
  have hlength : (overwrite buffer datagram).1 = (datagram.take buffer.length).length := by
    rw [List.length_take, Nat.min_comm, overwrite]
  rw [hlength, overwrite, List.take_left]

/-! ## The listener at work -/

/-- What the system hands to a listener. -/
inductive Arrival
  /-- A datagram of a peer. -/
  | datagram (peer : Address) (octets : Octets)
  /-- Word that nothing could be received. -/
  | failure
deriving DecidableEq

/-- A round of a listener. -/
structure Round where
  /-- What the system hands to it. -/
  arrival : Arrival
  /-- When. -/
  now : Instant
  /-- The queue as the listener finds it. -/
  queue : Queue

/-- A request that a listener has submitted. -/
structure Submission where
  /-- The request. -/
  request : Request
  /-- The queue before it. -/
  found : Queue
  /-- The queue after it. -/
  left : Queue
  /-- What became of it. -/
  result : Option (Except IntakeError Nat)

/-- A request that is submitted to a queue. -/
def Queue.submission (queue : Queue) (request : Request) : Submission where
  request := request
  found := queue
  left := (queue.enqueue request).2
  result := (queue.enqueue request).1

/-- A listener with its buffer, and what it has submitted. -/
structure Reception where
  /-- The listener. -/
  listener : DatagramListener
  /-- The buffer. -/
  buffer : Octets
  /-- What it has submitted, the latest last. -/
  submissions : List Submission := []

namespace Reception

/-- A listener that has received nothing. -/
def start (settings : DatagramSettings) : Reception where
  listener := { settings }
  buffer := List.replicate settings.buffer 0

/-- A round of the listener. -/
def round (r : Reception) (round : Round) : Reception :=
  if !r.listener.isServing then r
  else
    match round.arrival with
    | .failure =>
      { r with listener := { r.listener with listener := r.listener.listener.countError } }
    | .datagram peer octets =>
      let (length, buffer) := overwrite r.buffer octets
      if length = 0 then { r with buffer }
      else
        let request : Request :=
          { payload := buffer.take length
            transport := (Transport.datagram peer).label
            receivedAt := round.now }
        let (result, counted, left) := r.listener.listener.submit round.queue request
        let isServing := match result with
          | some (.ok _) | some (.error .circuitOpen) => true
          | some (.error .closed) | none => false
        { listener := { r.listener with listener := counted, isServing }
          buffer
          submissions := r.submissions ++ [⟨request, round.queue, left, result⟩] }

/-- Several rounds of the listener. -/
def run (r : Reception) (rounds : List Round) : Reception := rounds.foldl round r

theorem run_concat (r : Reception) (rounds : List Round) (last : Round) :
    r.run (rounds ++ [last]) = (r.run rounds).round last := by
  rw [run, run, List.foldl_append]
  rfl

/-- The buffer has the size of the settings. -/
def Fits (r : Reception) : Prop := r.buffer.length = r.listener.settings.buffer

theorem buffer_pos (settings : DatagramSettings) : 0 < settings.buffer := by
  rw [DatagramSettings.buffer]
  omega

/-! ### One round -/

variable {r : Reception}

/-- A datagram leaves no octets in the buffer when it has none. -/
theorem fst_overwrite_eq_zero_iff (h : r.Fits) (octets : Octets) :
    (overwrite r.buffer octets).1 = 0 ↔ octets = [] := by
  have hpos := buffer_pos r.listener.settings
  rw [Fits] at h
  rw [overwrite, h, ← List.length_eq_zero_iff]
  dsimp only
  omega

theorem isEmpty_stored (listener : DatagramListener) (octets : Octets) :
    (listener.stored octets).isEmpty = octets.isEmpty := by
  have hpos := buffer_pos listener.settings
  rw [DatagramListener.stored, Bool.eq_iff_iff, List.isEmpty_iff, List.isEmpty_iff,
    List.take_eq_nil_iff]
  exact or_iff_right (Nat.pos_iff_ne_zero.mp hpos)

/-- The octets of the buffer make the request that the front part of the datagram makes. -/
theorem request_eq (h : r.Fits) (peer : Address) (octets : Octets) (now : Instant) :
    ({ payload := (overwrite r.buffer octets).2.take (overwrite r.buffer octets).1
       transport := (Transport.datagram peer).label
       receivedAt := now } : Request) = r.listener.request peer octets now := by
  rw [take_overwrite, h]
  rfl

theorem submit_eq (listener : Listener) (queue : Queue) (request : Request) :
    (listener.submit queue request).1 = (queue.enqueue request).1
      ∧ (listener.submit queue request).2.2 = (queue.enqueue request).2 := by
  rw [Listener.submit]
  rcases queue.enqueue request with ⟨_ | _, _⟩ <;> exact ⟨rfl, rfl⟩

/-- A datagram that makes no request leaves the listener and the queue alone. -/
theorem round_of_passed (h : r.Fits) (peer : Address) (octets : Octets) (now : Instant)
    (queue : Queue) (hpassed : r.listener.isServing = false ∨ octets = []) :
    r.listener.receive queue peer octets now = (r.listener, queue)
      ∧ (r.round ⟨.datagram peer octets, now, queue⟩).listener = r.listener
      ∧ (r.round ⟨.datagram peer octets, now, queue⟩).submissions = r.submissions := by
  rw [DatagramListener.receive, isEmpty_stored]
  rcases hpassed with hserving | rfl
  · simp [round, hserving]
  · have hnone := (fst_overwrite_eq_zero_iff h []).mpr rfl
    cases hserving : r.listener.isServing <;> simp [round, hserving, hnone]

/-- A datagram that makes a request does what its front part does. -/
theorem round_of_taken (h : r.Fits) (peer : Address) {octets : Octets} (now : Instant)
    (queue : Queue) (hserving : r.listener.isServing = true) (hsome : octets ≠ []) :
    r.listener.receive queue peer octets now
        = ((r.round ⟨.datagram peer octets, now, queue⟩).listener,
          (queue.enqueue (r.listener.request peer octets now)).2)
      ∧ (r.round ⟨.datagram peer octets, now, queue⟩).submissions
        = r.submissions ++ [queue.submission (r.listener.request peer octets now)] := by
  have hstored : ¬ (overwrite r.buffer octets).1 = 0 :=
    fun hzero => hsome ((fst_overwrite_eq_zero_iff h octets).mp hzero)
  obtain ⟨hresult, hqueue⟩ :=
    submit_eq r.listener.listener queue (r.listener.request peer octets now)
  have hpassed : ¬ (!r.listener.isServing || octets.isEmpty) = true := by simp [hserving, hsome]
  have hserves : ¬ (!r.listener.isServing) = true := by simp [hserving]
  rw [DatagramListener.receive, isEmpty_stored, if_neg hpassed, Queue.submission, ← hresult,
    ← hqueue, round, if_neg hserves]
  dsimp only
  rw [if_neg hstored, request_eq h]
  exact ⟨rfl, rfl⟩

/-- What a listener without a buffer of its own does in a round. -/
def hear (listener : DatagramListener) (round : Round) : DatagramListener :=
  match round.arrival with
  | .datagram peer octets => (listener.receive round.queue peer octets round.now).1
  | .failure =>
    if listener.isServing then { listener with listener := listener.listener.countError }
    else listener

/-- The buffer is not seen from outside. -/
theorem listener_round (h : r.Fits) (round : Round) :
    (r.round round).listener = hear r.listener round := by
  obtain ⟨arrival, now, queue⟩ := round
  cases arrival with
  | failure => cases hserving : r.listener.isServing <;> simp [Reception.round, hear, hserving]
  | datagram peer octets =>
    by_cases hpassed : r.listener.isServing = false ∨ octets = []
    · obtain ⟨hreceive, hlistener, -⟩ := round_of_passed h peer octets now queue hpassed
      exact hlistener.trans (congrArg Prod.fst hreceive).symm
    · obtain ⟨hserving, hsome⟩ := not_or.mp hpassed
      obtain ⟨hreceive, -⟩ := round_of_taken h peer now queue (by simpa using hserving) hsome
      exact (congrArg Prod.fst hreceive).symm

/-- The listener goes on while the queue accepts. -/
theorem isServing_receive {listener : DatagramListener} (hserving : listener.isServing = true)
    {queue : Queue} (haccepts : queue.Accepts) (peer : Address) (octets : Octets) (now : Instant) :
    (listener.receive queue peer octets now).1.isServing = true := by
  rw [DatagramListener.receive]
  split
  · exact hserving
  · obtain ⟨hresult, -⟩ := submit_eq listener.listener queue (listener.request peer octets now)
    rw [(Queue.enqueue_of_accepts haccepts _).1] at hresult
    simp only [hresult]

/-- The buffer keeps its size, and the listener its settings. -/
theorem fits_round (h : r.Fits) (round : Round) :
    (r.round round).Fits ∧ (r.round round).listener.settings = r.listener.settings := by
  rw [Fits] at h ⊢
  rw [Reception.round]
  split
  · exact ⟨h, rfl⟩
  · split
    · exact ⟨h, rfl⟩
    · dsimp only
      split
      · exact ⟨(length_overwrite ..).trans h, rfl⟩
      · exact ⟨(length_overwrite ..).trans h, rfl⟩

end Reception

/-! ## Datagrams while the queue accepts -/

/-- A datagram as it was sent. -/
structure Datagram where
  /-- Who sent it. -/
  peer : Address
  /-- Its octets. -/
  octets : Octets
  /-- When it was received. -/
  receivedAt : Instant

/-- The datagram that the system hands over in a round. -/
def Round.datagram? (round : Round) : Option Datagram :=
  match round.arrival with
  | .datagram peer octets => some ⟨peer, octets, round.now⟩
  | .failure => none

namespace Datagram

/-- The request that carries some octets of a datagram. -/
def carry (datagram : Datagram) (payload : Octets) : Request where
  payload := payload
  transport := (Transport.datagram datagram.peer).label
  receivedAt := datagram.receivedAt

/-- The request that carries the whole datagram. -/
def whole (datagram : Datagram) : Request := datagram.carry datagram.octets

/-- The request that carries as much of the datagram as a buffer holds. -/
def cut (size : Nat) (datagram : Datagram) : Request := datagram.carry (datagram.octets.take size)

/-- A datagram with octets that fit a buffer. -/
def fits (size : Nat) (datagram : Datagram) : Bool :=
  !datagram.octets.isEmpty && datagram.octets.length ≤ size

theorem cut_of_length_le {size : Nat} {datagram : Datagram} (h : datagram.octets.length ≤ size) :
    datagram.cut size = datagram.whole := by
  rw [cut, whole, List.take_of_length_le h]

end Datagram

/-- What a round submits: as much of a datagram as the buffer holds, unless it has no octets. -/
def Round.submission? (settings : DatagramSettings) (round : Round) : Option Submission :=
  (round.datagram?.filter fun datagram => !datagram.octets.isEmpty).map fun datagram =>
    round.queue.submission (datagram.cut settings.buffer)

/-- The datagrams of some rounds, the latest last. -/
def datagrams (rounds : List Round) : List Datagram := rounds.filterMap Round.datagram?

/-- The datagrams that fit the buffer are queued whole and in their order, and no others are. -/
def QueuedWhole (settings : DatagramSettings) (rounds : List Round) : Prop :=
  ((Reception.start settings).run rounds).submissions.map Submission.request
    = ((datagrams rounds).filter (Datagram.fits settings.buffer)).map Datagram.whole

/-- What becomes of datagrams while the queue accepts. -/
structure Queued (settings : DatagramSettings) (rounds : List Round) (after : Reception) :
    Prop where
  /-- As much as the buffer holds of every datagram with octets makes a request, in their order. -/
  requests : after.submissions.map Submission.request
    = ((datagrams rounds).filter fun datagram => !datagram.octets.isEmpty).map
      (Datagram.cut settings.buffer)
  /-- Every request has been accepted under a number, and has come last into the queue. -/
  accepted : ∀ submission ∈ after.submissions, ∃ sequence,
    submission.result = some (.ok sequence) ∧ submission.left.waiting
      = submission.found.waiting ++ [{ submission.request with sequence }]
  /-- The listener goes on. -/
  serving : after.listener.isServing = true
  /-- A listener without a buffer of its own has counted the same. -/
  listener : after.listener = rounds.foldl Reception.hear { settings }
  /-- Datagrams are queued whole or not at all when all of them fit the buffer, and only then. -/
  whole_iff : QueuedWhole settings rounds
    ↔ ∀ datagram ∈ datagrams rounds, datagram.octets.length ≤ settings.buffer

/-! ### Requests -/

/-- Datagrams are cut by a buffer unless all of them fit it. -/
theorem map_cut_eq_iff {size : Nat} {sent : List Datagram} :
    (sent.filter fun datagram => !datagram.octets.isEmpty).map (Datagram.cut size)
        = (sent.filter (Datagram.fits size)).map Datagram.whole
      ↔ ∀ datagram ∈ sent, datagram.octets.length ≤ size := by
  have hfits : sent.filter (Datagram.fits size)
      = (sent.filter fun datagram => !datagram.octets.isEmpty).filter
        fun datagram => datagram.octets.length ≤ size := by
    rw [List.filter_filter]
    exact List.filter_congr fun datagram _ => Bool.and_comm ..
  rw [hfits]
  constructor
  · intro hsame datagram hmem
    -- No datagram is missing on the right, or there would be fewer requests.
    have hlength := congrArg List.length hsame
    rw [List.length_map, List.length_map, eq_comm, List.length_filter_eq_length_iff] at hlength
    cases hempty : datagram.octets.isEmpty with
    | true => simp [List.isEmpty_iff.mp hempty]
    | false =>
      exact of_decide_eq_true (hlength datagram (List.mem_filter.mpr ⟨hmem, by simp [hempty]⟩))
  · intro hall
    have hshort : ∀ datagram ∈ sent.filter fun datagram => !datagram.octets.isEmpty,
        datagram.octets.length ≤ size := fun datagram hmem => hall _ (List.mem_filter.mp hmem).1
    rw [List.filter_eq_self.mpr fun datagram hmem => decide_eq_true (hshort datagram hmem)]
    exact List.map_congr_left fun datagram hmem => Datagram.cut_of_length_le (hshort datagram hmem)

namespace Reception

theorem fits_run (settings : DatagramSettings) (rounds : List Round) :
    ((start settings).run rounds).Fits
      ∧ ((start settings).run rounds).listener.settings = settings := by
  induction rounds using List.reverseRecOn with
  | nil => exact ⟨List.length_replicate .., rfl⟩
  | append_singleton rounds last ih =>
    obtain ⟨hfits, hsettings⟩ := fits_round ih.1 last
    rw [run_concat]
    exact ⟨hfits, hsettings.trans ih.2⟩

theorem listener_run (settings : DatagramSettings) (rounds : List Round) :
    ((start settings).run rounds).listener = rounds.foldl hear { settings } := by
  induction rounds using List.reverseRecOn with
  | nil => rfl
  | append_singleton rounds last ih =>
    rw [run_concat, listener_round (fits_run settings rounds).1, ih, List.foldl_append]
    rfl

theorem round_of_accepts {r : Reception} (h : r.Fits) (hserving : r.listener.isServing = true)
    {last : Round} (haccepts : last.queue.Accepts) :
    (r.round last).listener.isServing = true ∧ (r.round last).submissions
      = r.submissions ++ (last.submission? r.listener.settings).toList := by
  rw [listener_round h, hear]
  obtain ⟨arrival, now, queue⟩ := last
  cases arrival with
  | failure => simp [round, hserving, Round.submission?, Round.datagram?]
  | datagram peer octets =>
    refine ⟨isServing_receive hserving haccepts peer octets now, ?_⟩
    by_cases hnone : octets = []
    · obtain ⟨-, -, hsubmissions⟩ := round_of_passed h peer octets now queue (.inr hnone)
      rw [hsubmissions]
      simp [hnone, Round.submission?, Round.datagram?]
    · obtain ⟨-, hsubmissions⟩ := round_of_taken h peer now queue hserving hnone
      have hsome : (!octets.isEmpty) = true := by simp [hnone]
      rw [hsubmissions, Round.submission?, Round.datagram?, Option.filter_some, if_pos hsome]
      rfl

/-- While the queue accepts, every round submits what its datagram makes. -/
theorem run_of_accepts (settings : DatagramSettings) {rounds : List Round}
    (haccepts : ∀ round ∈ rounds, round.queue.Accepts) :
    ((start settings).run rounds).listener.isServing = true
      ∧ ((start settings).run rounds).submissions
        = rounds.filterMap (Round.submission? settings) := by
  induction rounds using List.reverseRecOn with
  | nil => exact ⟨rfl, rfl⟩
  | append_singleton rounds last ih =>
    obtain ⟨hserving, hsubmissions⟩ :=
      ih fun round hmem => haccepts round (List.mem_append_left _ hmem)
    obtain ⟨hfits, hsettings⟩ := fits_run settings rounds
    obtain ⟨hserving', hround⟩ :=
      round_of_accepts hfits hserving (haccepts last (by simp))
    rw [run_concat]
    refine ⟨hserving', hround.trans ?_⟩
    rw [hsubmissions, hsettings, List.filterMap_append, List.filterMap_cons, List.filterMap_nil]
    cases last.submission? settings <;> rfl

theorem map_request_filterMap (settings : DatagramSettings) (rounds : List Round) :
    (rounds.filterMap (Round.submission? settings)).map Submission.request
      = ((datagrams rounds).filter fun datagram => !datagram.octets.isEmpty).map
        (Datagram.cut settings.buffer) := by
  induction rounds with
  | nil => rfl
  | cons first rest ih =>
    rw [datagrams, List.filterMap_cons, List.filterMap_cons]
    rw [datagrams] at ih
    -- A round without a datagram submits nothing, and neither does one with an empty datagram.
    cases hdatagram : first.datagram? with
    | none => simpa [Round.submission?, hdatagram] using ih
    | some datagram =>
      cases hempty : datagram.octets.isEmpty with
      | true => simpa [Round.submission?, hdatagram, Option.filter_some, hempty] using ih
      | false =>
        simpa [Round.submission?, hdatagram, Option.filter_some, hempty, Queue.submission] using ih

/-- Datagrams are queued up to the size of the buffer, whatever was in it. -/
theorem queued_run (settings : DatagramSettings) {rounds : List Round}
    (haccepts : ∀ round ∈ rounds, round.queue.Accepts) :
    Queued settings rounds ((start settings).run rounds) := by
  obtain ⟨hserving, hsubmissions⟩ := run_of_accepts settings haccepts
  have hrequests := map_request_filterMap settings rounds
  rw [← hsubmissions] at hrequests
  refine ⟨hrequests, ?_, hserving, listener_run settings rounds, ?_⟩
  · intro submission hmem
    rw [hsubmissions, List.mem_filterMap] at hmem
    obtain ⟨round, hround, hsubmission⟩ := hmem
    obtain ⟨datagram, -, rfl⟩ := Option.map_eq_some_iff.mp hsubmission
    obtain ⟨hok, hwaiting⟩ := Queue.enqueue_of_accepts (haccepts round hround)
      (datagram.cut settings.buffer)
    exact ⟨_, hok, hwaiting⟩
  · rw [QueuedWhole, hrequests]
    exact map_cut_eq_iff

end Reception

/-! ## A datagram that is too long -/

/-- A buffer of four octets. -/
def smallSettings : DatagramSettings := { maxDatagram := 4 }

/-- A round with a datagram while the queue is empty. -/
def emptyRound (octets : Octets) : Round :=
  ⟨.datagram (.short 192 0 2 10) octets, .epoch, .new 5⟩

/-- Five octets and three after them come to four and three. -/
theorem queued_run_small :
    let after := (Reception.start smallSettings).run
      [emptyRound [1, 2, 3, 4, 5], emptyRound [], emptyRound [6, 7, 8]]
    after.submissions.map (fun submission => submission.request.payload)
        = [[1, 2, 3, 4], [6, 7, 8]]
      ∧ Queued smallSettings [emptyRound [1, 2, 3, 4, 5], emptyRound [], emptyRound [6, 7, 8]]
        after := by
  have haccepts : ∀ round ∈ [emptyRound [1, 2, 3, 4, 5], emptyRound [], emptyRound [6, 7, 8]],
      round.queue.Accepts := by
    simp only [List.mem_cons, List.not_mem_nil, or_false, forall_eq_or_imp, forall_eq]
    exact ⟨⟨rfl, rfl, by decide⟩, ⟨rfl, rfl, by decide⟩, ⟨rfl, rfl, by decide⟩⟩
  exact ⟨by decide +kernel, Reception.queued_run smallSettings haccepts⟩

/-- The front part of a datagram that does not fit is queued under the label of its sender. -/
theorem not_queuedWhole_small :
    ¬ QueuedWhole smallSettings [emptyRound [1, 2, 3, 4, 5]]
      ∧ ((Reception.start smallSettings).run [emptyRound [1, 2, 3, 4, 5]]).submissions.map
          Submission.request
        = [{ payload := [1, 2, 3, 4], transport := "device-udp:192.0.2.10", receivedAt := .epoch }]
    := by
  refine ⟨?_, by decide +kernel⟩
  rw [QueuedWhole]
  decide +kernel

end FieldTelemetry.Intake
