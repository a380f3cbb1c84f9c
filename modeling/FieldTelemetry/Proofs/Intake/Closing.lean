import FieldTelemetry.Proofs.Intake.Traffic

/-!
# The intake queue while it closes

When the consumer closes the queue, requests may be anywhere on their way into it. Those that are in
the queue come out in their order, and those that come too late are refused.

## Main definitions

* `Traffic.Ordered`: what came into the queue has been handed out, is in it, or was lost with it

## Main results

* `Traffic.turned_call`: a request takes one of the steps to an open queue, or comes too late
* `Traffic.Logged.call`, `Traffic.Ordered.call`: steps of requests preserve what was written down
-/

namespace FieldTelemetry.Intake.Traffic

variable {requests : List Request} {s : Traffic}

/-! ## Steps of requests -/

/-- A request takes a step as to an open queue, or it finds the queue closed when it is to come
in. -/
theorem turned_call (s : Traffic) (i : Nat) :
    s.Turned (s.turn (.call i)) ∨ ∃ request sequence,
      s.calls[i]? = some ⟨request, .pushing sequence⟩ ∧ s.queue.isClosed = true
        ∧ s.turn (.call i) = s.move i ⟨request, .done (.error .closed)⟩
          { s.queue with depth := s.queue.depth - 1 } := by
  rw [turn]
  cases hcall : s.calls[i]? with
  | none => exact .inl .nothing
  | some call =>
    by_cases hthere : call.isPushing = true → s.queue.isClosed = false
    · exact .inl (turned_advance hcall hthere)
    · obtain ⟨request, entry⟩ := call
      obtain ⟨hpushing, hclosed⟩ := Classical.not_imp.mp hthere
      rw [Bool.not_eq_false] at hclosed
      cases entry with
      | pushing sequence =>
        refine .inr ⟨request, sequence, rfl, hclosed, ?_⟩
        simp [advance, Entry.step, hclosed, move]
      | _ => cases hpushing

/-- Numbers are given once, whether the queue is closed or not. -/
theorem Logged.call (h : s.Logged requests) (i : Nat) : (s.turn (.call i)).Logged requests := by
  obtain hturned | ⟨request, sequence, hcall, -, hlate⟩ := s.turned_call i
  · exact h.turned hturned
  · rw [hlate]
    exact h.move hcall (fun _ hnone => nomatch hnone) rfl rfl

/-- What requests on their way do not change. -/
theorem call_frame (s : Traffic) (i : Nat) :
    (s.turn (.call i)).taking = s.taking ∧ (s.turn (.call i)).handedOut = s.handedOut
      ∧ (s.turn (.call i)).queue.isClosed = s.queue.isClosed
      ∧ (s.turn (.call i)).queue.isDeserted = s.queue.isDeserted := by
  rw [turn]
  cases s.calls[i]? with
  | none => exact ⟨rfl, rfl, rfl, rfl⟩
  | some call =>
    obtain ⟨request, entry⟩ := call
    refine ⟨rfl, rfl, ?_⟩
    simp only [advance]
    cases entry with
    | arriving =>
      rw [Entry.step]
      split <;> exact ⟨rfl, rfl⟩
    | numbered sequence =>
      obtain ⟨isOpen, trips, hraise⟩ := s.queue.exists_raise
      rw [Entry.step, hraise]
      exact ⟨rfl, rfl⟩
    | pushing sequence =>
      rw [Entry.step]
      split
      · exact ⟨rfl, rfl⟩
      · split <;> exact ⟨rfl, rfl⟩
    | _ => exact ⟨rfl, rfl⟩

/-- A request comes into an open queue behind all others, and no request into a closed one. -/
theorem entered_call (s : Traffic) (i : Nat) :
    ((s.turn (.call i)).entered = s.entered
        ∧ (s.turn (.call i)).queue.waiting = s.queue.waiting)
      ∨ s.queue.isClosed = false ∧ ∃ request,
        (s.turn (.call i)).entered = s.entered ++ [(i, request)]
          ∧ (s.turn (.call i)).queue.waiting = s.queue.waiting ++ [request] := by
  rw [turn]
  cases s.calls[i]? with
  | none => exact .inl ⟨rfl, rfl⟩
  | some call =>
    obtain ⟨request, entry⟩ := call
    cases entry with
    | arriving =>
      simp only [advance, Entry.step, List.append_nil]
      split <;> exact .inl ⟨trivial, rfl⟩
    | numbered sequence =>
      obtain ⟨isOpen, trips, hraise⟩ := s.queue.exists_raise
      simp only [advance, Entry.step, hraise, List.append_nil]
      exact .inl ⟨trivial, rfl⟩
    | pushing sequence =>
      cases hclosed : s.queue.isClosed with
      | true => simp [advance, Entry.step, hclosed]
      | false =>
        by_cases hfree : s.queue.waiting.length < s.queue.capacity
        · exact .inr ⟨rfl, { request with sequence }, by simp [advance, Entry.step, hclosed, hfree]⟩
        · simp [advance, Entry.step, hclosed, hfree]
    | _ => simp [advance, Entry.step]

/-! ## The order of requests -/

/-- What came into the queue has been handed out, is in the hand of the consumer, is in the queue or
was lost with it, in this order. -/
def Ordered (lost : List Request) (s : Traffic) : Prop :=
  s.entered.map Prod.snd = s.handedOut ++ s.taking.inHand ++ s.queue.waiting ++ lost

namespace Ordered

variable {lost : List Request}

theorem start (capacity : Nat) (requests : List Request) :
    Ordered [] (Traffic.start capacity requests) := rfl

/-- As long as requests come in, none is lost. -/
theorem call (h : s.Ordered lost) (hlost : s.queue.isClosed = false → lost = []) (i : Nat) :
    (s.turn (.call i)).Ordered lost := by
  obtain ⟨htaking, hhandedOut, -⟩ := s.call_frame i
  rw [Ordered, htaking, hhandedOut]
  obtain ⟨hentered, hwaiting⟩ | ⟨hopen, request, hentered, hwaiting⟩ := s.entered_call i
  · rw [hentered, hwaiting]
    exact h
  · rw [Ordered, hlost hopen, List.append_nil] at h
    rw [hentered, hwaiting, hlost hopen, List.map_append, h, List.append_nil, List.append_assoc]
    rfl

theorem took {request : Request} {rest : List Request} (h : s.Ordered lost)
    (htaking : s.taking = .idle) (hwaiting : s.queue.waiting = request :: rest) :
    Ordered lost { s with queue := s.queue.pop rest, taking := .took request } := by
  rw [Ordered, htaking, hwaiting, Taking.inHand, List.append_nil] at h
  rw [Ordered]
  dsimp only [Taking.inHand, Queue.pop]
  rw [h, List.append_assoc, List.append_assoc, List.append_assoc]
  rfl

theorem lowered {request : Request} (h : s.Ordered lost) (htaking : s.taking = .took request) :
    Ordered lost { s with queue := s.queue.lower, taking := .lowered request } := by
  rw [Ordered, htaking] at h
  exact h

theorem handedOut {request : Request} (h : s.Ordered lost) (htaking : s.taking = .lowered request) :
    Ordered lost { s with
      queue := s.queue.countOut
      taking := .idle
      handedOut := s.handedOut ++ [request] } := by
  rw [Ordered, htaking, Taking.inHand] at h
  rw [Ordered]
  dsimp only [Taking.inHand, Queue.countOut]
  rw [h, List.append_nil]

/-- When the consumer leaves, it loses what is still in the queue. -/
theorem abandon (h : s.Ordered []) :
    Ordered s.queue.waiting { s with queue := s.queue.abandon } := by
  rw [Ordered, List.append_nil] at h
  rw [Ordered]
  dsimp only [Queue.abandon]
  rw [h, List.append_nil]

end Ordered

end FieldTelemetry.Intake.Traffic
