import FieldTelemetry.Proofs.Intake.Turns
import Mathlib.Order.MinMax

/-!
# What turns at the intake queue preserve

The counts of the queue fit to the requests on their way, in it, and out of it; the breaker is open
exactly when the high water has reached the capacity; and numbers are given once.

## Main definitions

* `Traffic.Balanced`: the counts fit, and requests come out in the order in which they came in
* `Traffic.Tripped`: the breaker has opened once, or not yet
* `Traffic.Logged`: numbers are given once, and requests come in once

## Main results

* `Traffic.Balanced.turned`, `Traffic.Tripped.turned`, `Traffic.Logged.turned`: turns preserve them
-/

namespace FieldTelemetry.Intake.Traffic

/-! ## What turns preserve -/

/-- The counts of the queue fit to the requests on their way, in it, and out of it. -/
structure Balanced (s : Traffic) : Prop where
  /-- The consumer is there. -/
  there : s.queue.isClosed = false
  /-- The depth counts the requests that are about to come in, in the queue, and just taken out. -/
  depth : s.queue.depth
    = s.queue.waiting.length + s.calls.countP Call.isPushing + s.taking.held
  /-- The requests that came in have been counted, or will be next. -/
  entered : s.entered.length = s.queue.enqueued + s.calls.countP Call.isPushed
  /-- The requests that were handed on have been counted. -/
  dequeued : s.queue.dequeued = s.handedOut.length
  /-- They are handed on in the order in which they came in. -/
  order : s.entered.map Prod.snd = s.handedOut ++ s.taking.inHand ++ s.queue.waiting
  /-- No more requests are in the queue than its capacity. -/
  bounded : s.queue.waiting.length ≤ s.queue.capacity

theorem balanced_start (capacity : Nat) (requests : List Request) :
    (start capacity requests).Balanced := by
  have hnone (p : Call → Bool) (hp : ∀ request, p { request } = false) :
      (start capacity requests).calls.countP p = 0 := by
    simp [start, List.countP_eq_zero, hp]
  refine ⟨rfl, ?_, ?_, rfl, rfl, Nat.zero_le _⟩
  · rw [hnone _ fun _ => rfl]
    rfl
  · rw [hnone _ fun _ => rfl]
    rfl

/-- A step of a request that changes neither the buffer nor what was handed out. -/
theorem Balanced.move {s : Traffic} {i : Nat} {old new : Call} {queue : Queue} (h : s.Balanced)
    (hcall : s.calls[i]? = some old) (hthere : queue.isClosed = s.queue.isClosed)
    (hwaiting : queue.waiting = s.queue.waiting) (hcapacity : queue.capacity = s.queue.capacity)
    (hdequeued : queue.dequeued = s.queue.dequeued)
    (hdepth : queue.depth + old.isPushing.toNat = s.queue.depth + new.isPushing.toNat)
    (henqueued : queue.enqueued + new.isPushed.toNat = s.queue.enqueued + old.isPushed.toNat) :
    (s.move i new queue).Balanced := by
  have hpushing := countP_set_add Call.isPushing new hcall
  have hpushed := countP_set_add Call.isPushed new hcall
  have hbefore := h.depth
  have hentered := h.entered
  simp only [← hwaiting] at hbefore
  refine ⟨hthere.trans h.there, ?_, ?_, hdequeued.trans h.dequeued, ?_, ?_⟩
  · simp only [Traffic.move]
    omega
  · simp only [Traffic.move]
    omega
  · simpa only [Traffic.move, hwaiting] using h.order
  · simpa only [Traffic.move, hwaiting, hcapacity] using h.bounded

theorem Balanced.turned {s t : Traffic} (h : s.Balanced) (hturned : s.Turned t) : t.Balanced := by
  cases hturned with
  | nothing => exact h
  | refused hcall hopen => exact h.move hcall rfl rfl rfl rfl rfl rfl
  | admitted hcall hopen => exact h.move hcall rfl rfl rfl rfl rfl rfl
  | numbered hcall => exact h.move hcall rfl rfl rfl rfl rfl rfl
  | @raised i sequence request hcall =>
    obtain ⟨isOpen, trips, hraise⟩ := s.queue.exists_raise
    have hmoved : (s.move i ⟨request, .pushing sequence⟩ s.queue.raise).Balanced := by
      rw [hraise]
      exact h.move hcall rfl rfl rfl rfl rfl rfl
    exact ⟨hmoved.there, hmoved.depth, hmoved.entered, hmoved.dequeued, hmoved.order,
      hmoved.bounded⟩
  | @pushed i sequence request hcall hfree =>
    have hpushing := countP_set_add Call.isPushing ⟨request, .pushed sequence⟩ hcall
    have hpushed := countP_set_add Call.isPushed ⟨request, .pushed sequence⟩ hcall
    simp only [Call.isPushing, Call.isPushed, Bool.toNat_true, Bool.toNat_false] at hpushing hpushed
    have hdepth := h.depth
    have hentered := h.entered
    refine ⟨h.there, ?_, ?_, h.dequeued, ?_, ?_⟩
    · simp only [Traffic.move, List.length_append, List.length_singleton]
      omega
    · simp only [Traffic.move, List.length_append, List.length_singleton]
      omega
    · simp only [Traffic.move, List.map_append, h.order, List.append_assoc, List.map_cons,
        List.map_nil]
    · simp only [Traffic.move, List.length_append, List.length_singleton]
      omega
  | counted hcall => exact h.move hcall rfl rfl rfl rfl rfl rfl
  | @took request rest htaking hwaiting =>
    obtain ⟨hthere, hdepth, hentered, hdequeued, horder, hbounded⟩ := h
    simp only [hwaiting, htaking, Taking.held, Taking.inHand, List.length_cons]
      at hdepth horder hbounded
    refine ⟨hthere, ?_, hentered, hdequeued, ?_, ?_⟩
    · simp only [Queue.pop, Taking.held]
      omega
    · simpa only [Queue.pop, Taking.inHand, List.append_assoc, List.append_nil, List.nil_append,
        List.singleton_append] using horder
    · simp only [Queue.pop]
      omega
  | @lowered request htaking =>
    obtain ⟨hthere, hdepth, hentered, hdequeued, horder, hbounded⟩ := h
    rw [htaking] at hdepth horder
    refine ⟨hthere, ?_, hentered, hdequeued, horder, hbounded⟩
    simp only [Queue.lower, Taking.held] at hdepth ⊢
    omega
  | @handedOut request htaking =>
    obtain ⟨hthere, hdepth, hentered, hdequeued, horder, hbounded⟩ := h
    rw [htaking] at hdepth horder
    refine ⟨hthere, hdepth, hentered, ?_, ?_, hbounded⟩
    · simp only [Queue.countOut, List.length_append, List.length_singleton, hdequeued]
    · simpa only [Queue.countOut, Taking.inHand, List.append_nil] using horder

/-- The breaker has opened once, as soon as the depth has reached the capacity, or not yet. -/
structure Tripped (s : Traffic) : Prop where
  /-- The depth has not been larger than the high water. -/
  depth_le : s.queue.depth ≤ s.queue.highWater
  /-- The breaker is open when the depth has reached the capacity. -/
  isOpen_iff : s.queue.isOpen = true ↔ s.queue.capacity ≤ s.queue.highWater
  /-- It has answered once that it opens. -/
  answers : s.answers.count true = s.queue.isOpen.toNat
  /-- It has counted it. -/
  trips : s.queue.trips = s.queue.isOpen.toNat

theorem tripped_start (capacity : Nat) (requests : List Request) :
    (start capacity requests).Tripped := by
  refine ⟨le_rfl, ?_, rfl, rfl⟩
  simp [start, Queue.new]

theorem Tripped.turned {s t : Traffic} (h : s.Tripped) (hturned : s.Turned t) : t.Tripped := by
  obtain ⟨hdepth, hopen, hanswers, htrips⟩ := h
  cases hturned with
  | @raised i sequence request hcall =>
    rcases s.queue.raise_cases with ⟨hraise, hanswer, hclosed, hfull⟩
      | ⟨hraise, hanswer, hopened, hfull⟩ | ⟨hraise, hanswer, hroom⟩
    · rw [hclosed] at hanswers htrips
      refine ⟨?_, ?_, ?_, ?_⟩ <;> simp only [move, hraise, hanswer, Queue.lifted]
      · exact le_max_right _ _
      · exact iff_of_true trivial (hfull.trans (le_max_right _ _))
      · rw [List.count_append, hanswers]
        rfl
      · rw [htrips]
        rfl
    · refine ⟨?_, ?_, ?_, ?_⟩ <;> simp only [move, hraise, hanswer, Queue.lifted]
      · exact le_max_right _ _
      · exact iff_of_true hopened (hfull.trans (le_max_right _ _))
      · rw [List.count_append, hanswers]
        rfl
      · exact htrips
    · refine ⟨?_, ?_, ?_, ?_⟩ <;> simp only [move, hraise, hanswer, Queue.lifted]
      · exact le_max_right _ _
      · rw [hopen]
        omega
      · rw [List.count_append, hanswers]
        rfl
      · exact htrips
  | lowered htaking => exact ⟨(Nat.sub_le _ _).trans hdepth, hopen, hanswers, htrips⟩
  | _ => exact ⟨hdepth, hopen, hanswers, htrips⟩

/-- The number of a request on its way, if it has one. -/
def sequenceAt? (s : Traffic) (i : Nat) : Option Nat :=
  s.calls[i]?.bind fun call => call.entry.sequence?

/-- A request as it has come into the queue, if it has. -/
def enteredAt? (s : Traffic) (i : Nat) : Option Request :=
  s.calls[i]?.bind fun call =>
    call.entry.entered?.map fun sequence => { call.request with sequence }

theorem getElem?_set_of_getElem? {calls : List Call} {i : Nat} {old : Call} (new : Call) (j : Nat)
    (h : calls[i]? = some old) : (calls.set i new)[j]? = if i = j then some new else calls[j]? := by
  obtain ⟨hlt, -⟩ := List.getElem?_eq_some_iff.mp h
  rw [List.getElem?_set, if_pos hlt]

theorem getElem?_bind_set {β : Type} {calls : List Call} {i : Nat} {old new : Call}
    (view : Call → Option β) (j : Nat) (h : calls[i]? = some old) (hsame : view new = view old) :
    (calls.set i new)[j]?.bind view = calls[j]?.bind view := by
  rw [getElem?_set_of_getElem? new j h]
  split
  · rename_i hij
    rw [← hij, h, Option.bind_some, Option.bind_some, hsame]
  · rfl

/-- Numbers are given once, and what has come into the queue is what has been written down. -/
structure Logged (requests : List Request) (s : Traffic) : Prop where
  /-- The calls are those of the requests, in their order. -/
  requests : s.calls.map Call.request = requests
  /-- A number that a call has is one that has been given. -/
  sequence_le {i n : Nat} : s.sequenceAt? i = some n → n ≤ s.queue.numbered
  /-- No two calls have the same number. -/
  sequence_inj {i j n : Nat} : s.sequenceAt? i = some n → s.sequenceAt? j = some n → i = j
  /-- A request came in when its call has pushed it. -/
  mem_entered_iff {i : Nat} {request : Request} :
    (i, request) ∈ s.entered ↔ s.enteredAt? i = some request
  /-- It came in once. -/
  nodup : (s.entered.map Prod.fst).Nodup

theorem logged_start (capacity : Nat) (requests : List Request) :
    (start capacity requests).Logged requests := by
  have hsequence (i : Nat) : (start capacity requests).sequenceAt? i = none := by
    simp [start, sequenceAt?, Entry.sequence?, Option.bind_eq_none_iff]
  have hentered (i : Nat) : (start capacity requests).enteredAt? i = none := by
    simp [start, enteredAt?, Entry.entered?, Option.bind_eq_none_iff]
  refine ⟨?_, ?_, ?_, ?_, List.nodup_nil⟩
  · rw [start, List.map_map]
    exact List.map_id _
  · intro i n h
    rw [hsequence] at h
    cases h
  · intro i j n h
    rw [hsequence] at h
    cases h
  · intro i request
    rw [hentered]
    simp [start]

theorem map_request_set {calls : List Call} {i : Nat} {request : Request} {old new : Entry}
    (h : calls[i]? = some ⟨request, old⟩) :
    (calls.set i ⟨request, new⟩).map Call.request = calls.map Call.request :=
  map_set_of_getElem? Call.request h rfl

/-- A step of a request that neither numbers it nor takes it into the queue. -/
theorem Logged.move {requests : List Request} {s : Traffic} {i : Nat} {request : Request}
    {old new : Entry} {queue : Queue} (h : s.Logged requests)
    (hcall : s.calls[i]? = some ⟨request, old⟩)
    (hsequence : ∀ n, new.sequence? = some n → old.sequence? = some n)
    (hentered : new.entered? = old.entered?) (hnumbered : queue.numbered = s.queue.numbered) :
    (s.move i ⟨request, new⟩ queue).Logged requests := by
  have hsequences {j n : Nat} (hj : (s.move i ⟨request, new⟩ queue).sequenceAt? j = some n) :
      s.sequenceAt? j = some n := by
    rw [Traffic.move, Traffic.sequenceAt?, getElem?_set_of_getElem? _ j hcall] at hj
    split at hj
    · rename_i hij
      rw [Traffic.sequenceAt?, ← hij, hcall]
      exact hsequence n hj
    · exact hj
  have henters : (s.move i ⟨request, new⟩ queue).enteredAt? = s.enteredAt? := by
    funext j
    apply getElem?_bind_set _ j hcall
    simp only [hentered]
  refine ⟨?_, ?_, ?_, ?_, h.nodup⟩
  · rw [Traffic.move, map_request_set hcall, h.requests]
  · exact fun hnumber => (h.sequence_le (hsequences hnumber)).trans hnumbered.ge
  · exact fun hi hj => h.sequence_inj (hsequences hi) (hsequences hj)
  · rw [henters]
    exact h.mem_entered_iff

theorem sequenceAt?_move {s : Traffic} {i : Nat} {old : Call} (new : Call) (queue : Queue) (j : Nat)
    (h : s.calls[i]? = some old) : (s.move i new queue).sequenceAt? j
      = if i = j then new.entry.sequence? else s.sequenceAt? j := by
  rw [sequenceAt?, Traffic.move, getElem?_set_of_getElem? new j h]
  split <;> rfl

theorem enteredAt?_move {s : Traffic} {i : Nat} {old : Call} (new : Call) (queue : Queue) (j : Nat)
    (h : s.calls[i]? = some old) : (s.move i new queue).enteredAt? j
      = if i = j then new.entry.entered?.map fun sequence => { new.request with sequence }
        else s.enteredAt? j := by
  rw [enteredAt?, Traffic.move, getElem?_set_of_getElem? new j h]
  split <;> rfl

/-- The next number is larger than all that were given before. -/
theorem Logged.numbered {requests : List Request} {s : Traffic} {i : Nat} {request : Request}
    (h : s.Logged requests) (hcall : s.calls[i]? = some ⟨request, .admitted⟩) :
    (s.move i ⟨request, .numbered (s.queue.numbered + 1)⟩
      { s.queue with numbered := s.queue.numbered + 1 }).Logged requests := by
  refine ⟨?_, ?_, ?_, ?_, h.nodup⟩
  · rw [Traffic.move, map_request_set hcall, h.requests]
  · intro j n hnumber
    rw [sequenceAt?_move _ _ j hcall] at hnumber
    split at hnumber
    · cases hnumber
      exact le_rfl
    · exact (h.sequence_le hnumber).trans (Nat.le_succ _)
  · intro j k n hj hk
    rw [sequenceAt?_move _ _ j hcall] at hj
    rw [sequenceAt?_move _ _ k hcall] at hk
    split at hj
    · rename_i hij
      cases hj
      split at hk
      · rename_i hik
        exact hij.symm.trans hik
      · exact absurd (h.sequence_le hk) (Nat.not_succ_le_self _)
    · split at hk
      · cases hk
        exact absurd (h.sequence_le hj) (Nat.not_succ_le_self _)
      · exact h.sequence_inj hj hk
  · intro j request'
    have hsame : (s.move i ⟨request, .numbered (s.queue.numbered + 1)⟩
        { s.queue with numbered := s.queue.numbered + 1 }).enteredAt? j = s.enteredAt? j :=
      getElem?_bind_set _ j hcall rfl
    rw [hsame]
    exact h.mem_entered_iff

/-- A request comes into the queue once. -/
theorem Logged.pushed {requests : List Request} {s : Traffic} {i sequence : Nat} {request : Request}
    {queue : Queue} (h : s.Logged requests)
    (hcall : s.calls[i]? = some ⟨request, .pushing sequence⟩)
    (hnumbered : queue.numbered = s.queue.numbered) :
    Logged requests { s.move i ⟨request, .pushed sequence⟩ queue with
      entered := s.entered ++ [(i, { request with sequence })] } := by
  have hsame : (s.move i ⟨request, .pushed sequence⟩ queue).sequenceAt? = s.sequenceAt? :=
    funext fun j => getElem?_bind_set _ j hcall rfl
  have hnew (request' : Request) : (i, request') ∉ s.entered := by
    rw [h.mem_entered_iff, enteredAt?, hcall]
    intro hentered
    cases hentered
  refine ⟨?_, ?_, ?_, ?_, ?_⟩
  · rw [Traffic.move, map_request_set hcall, h.requests]
  · intro j n hnumber
    have hbefore : s.sequenceAt? j = some n := hsame ▸ hnumber
    exact (h.sequence_le hbefore).trans hnumbered.ge
  · intro j k n hj hk
    have hbefore : s.sequenceAt? j = some n ∧ s.sequenceAt? k = some n := hsame ▸ ⟨hj, hk⟩
    exact h.sequence_inj hbefore.1 hbefore.2
  · intro j request'
    have henters := enteredAt?_move ⟨request, .pushed sequence⟩ queue j hcall
    have hlogged : (j, request') ∈ s.entered ++ [(i, { request with sequence })]
        ↔ (s.move i ⟨request, .pushed sequence⟩ queue).enteredAt? j = some request' := by
      rw [henters, List.mem_append, List.mem_singleton, Prod.mk.injEq]
      by_cases hij : i = j
      · subst hij
        simp [hnew, Entry.entered?, eq_comm]
      · rw [if_neg hij, h.mem_entered_iff]
        simp [Ne.symm hij]
    exact hlogged
  · rw [List.map_append, List.map_singleton, List.nodup_append]
    refine ⟨h.nodup, List.pairwise_singleton _ _, ?_⟩
    rintro j hj k hk rfl
    rw [List.mem_singleton] at hk
    subst hk
    obtain ⟨⟨_, request'⟩, hmem, rfl⟩ := List.mem_map.mp hj
    exact hnew request' hmem

theorem Logged.turned {requests : List Request} {s t : Traffic} (h : s.Logged requests)
    (hturned : s.Turned t) : t.Logged requests := by
  cases hturned with
  | refused hcall hopen => exact h.move hcall (fun _ hnone => nomatch hnone) rfl rfl
  | admitted hcall hopen => exact h.move hcall (fun _ hnone => nomatch hnone) rfl rfl
  | numbered hcall => exact h.numbered hcall
  | @raised i sequence request hcall =>
    obtain ⟨isOpen, trips, hraise⟩ := s.queue.exists_raise
    have hmoved : (s.move i ⟨request, .pushing sequence⟩ s.queue.raise).Logged requests := by
      rw [hraise]
      exact h.move hcall (fun _ hsame => hsame) rfl rfl
    exact ⟨hmoved.requests, hmoved.sequence_le, hmoved.sequence_inj, hmoved.mem_entered_iff,
      hmoved.nodup⟩
  | pushed hcall hfree => exact h.pushed hcall rfl
  | counted hcall => exact h.move hcall (fun _ hsame => hsame) rfl rfl
  | _ => exact ⟨h.requests, h.sequence_le, h.sequence_inj, h.mem_entered_iff, h.nodup⟩

end FieldTelemetry.Intake.Traffic
