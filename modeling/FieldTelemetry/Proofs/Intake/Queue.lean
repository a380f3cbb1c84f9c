import FieldTelemetry.Proofs.Intake.Traffic
import Mathlib.Data.List.Infix
import Mathlib.Data.List.Induction
import Mathlib.Order.Bounds.Defs
import Mathlib.Order.MinMax

/-!
# The intake queue under concurrency

Whichever turns the requests on their way and the consumer take, the consumer gets the requests in
the order in which they came into the queue, the counts fit together when nobody is between two
steps, and the breaker opens once, as soon as the depth has reached the capacity.

## Main definitions

* `Traffic.KeptOut`: a request that has not passed the breaker
* `Traffic.Alone`: a request while no other is on its way
* `Orderly`: what is in order after any turns

## Main results

* `Traffic.isGreatest_highWater`: the high water is the largest depth
* `Traffic.keptOut_run`: an open breaker stays open
* `Traffic.hasPlace_run`: a request that is alone finds a free place
* `run_orderly`: the queue is in order after any turns
-/

namespace FieldTelemetry.Intake

namespace Traffic

/-! ## Runs -/

/-- What every turn preserves is there after any turns. -/
theorem preserved_run (capacity : Nat) (requests : List Request) (turns : List Turn) :
    ((start capacity requests).run turns).Balanced ∧ ((start capacity requests).run turns).Tripped
      ∧ ((start capacity requests).run turns).Logged requests := by
  induction turns using List.reverseRecOn with
  | nil =>
    exact ⟨balanced_start capacity requests, tripped_start capacity requests,
      logged_start capacity requests⟩
  | append_singleton turns turn ih =>
    obtain ⟨hbalanced, htripped, hlogged⟩ := ih
    have hturned := turned hbalanced.there turn
    rw [run_concat]
    exact ⟨hbalanced.turned hturned, htripped.turned hturned, hlogged.turned hturned⟩

theorem turned_run (capacity : Nat) (requests : List Request) (turns : List Turn) (turn : Turn) :
    ((start capacity requests).run turns).Turned
      ((start capacity requests).run (turns ++ [turn])) := by
  rw [run_concat]
  exact turned (preserved_run capacity requests turns).1.there turn

theorem Turned.capacity {s t : Traffic} (h : s.Turned t) : t.queue.capacity = s.queue.capacity := by
  cases h with
  | raised hcall =>
    obtain ⟨isOpen, trips, hraise⟩ := s.queue.exists_raise
    rw [move, hraise]
    rfl
  | _ => rfl

theorem capacity_run (capacity : Nat) (requests : List Request) (turns : List Turn) :
    ((start capacity requests).run turns).queue.capacity = max capacity 1 := by
  induction turns using List.reverseRecOn with
  | nil => rfl
  | append_singleton turns turn ih =>
    exact (turned_run capacity requests turns turn).capacity.trans ih

/-- The high water follows the depth. -/
theorem Turned.highWater {s t : Traffic} (h : s.Turned t) (htripped : s.Tripped) :
    t.queue.highWater = max s.queue.highWater t.queue.depth := by
  have hsame := (max_eq_left htripped.depth_le).symm
  cases h with
  | raised hcall =>
    obtain ⟨isOpen, trips, hraise⟩ := s.queue.exists_raise
    rw [move, hraise]
    rfl
  | lowered htaking =>
    exact (max_eq_left ((Nat.sub_le _ _).trans htripped.depth_le)).symm
  | _ => exact hsame

/-- The high water is the largest depth that there was. -/
theorem isGreatest_highWater (capacity : Nat) (requests : List Request) (turns : List Turn) :
    IsGreatest {depth | ∃ earlier, earlier <+: turns
        ∧ ((start capacity requests).run earlier).queue.depth = depth}
      ((start capacity requests).run turns).queue.highWater := by
  induction turns using List.reverseRecOn with
  | nil =>
    refine ⟨⟨[], List.prefix_rfl, rfl⟩, ?_⟩
    rintro depth ⟨earlier, hearlier, rfl⟩
    rw [List.prefix_nil.mp hearlier]
    exact le_rfl
  | append_singleton turns turn ih =>
    obtain ⟨⟨earlier, hearlier, hreached⟩, hlargest⟩ := ih
    have hfollows := (turned_run capacity requests turns turn).highWater
      (preserved_run capacity requests turns).2.1
    constructor
    · -- Either the depth is as large as never before, or it was as large at an earlier time.
      rcases max_cases ((start capacity requests).run turns).queue.highWater
          ((start capacity requests).run (turns ++ [turn])).queue.depth with ⟨hmax, -⟩ | ⟨hmax, -⟩
      · exact ⟨earlier, hearlier.trans (List.prefix_append _ _), by rw [hfollows, hmax, hreached]⟩
      · exact ⟨_, List.prefix_rfl, by rw [hfollows, hmax]⟩
    · rintro depth ⟨earlier, hearlier, rfl⟩
      rw [hfollows]
      rcases List.prefix_concat_iff.mp hearlier with rfl | hbefore
      · exact le_max_right _ _
      · exact (hlargest ⟨earlier, hbefore, rfl⟩).trans (le_max_left _ _)

/-! ### The open breaker -/

/-- A request has not come to the breaker yet, or the breaker has refused it. -/
def KeptOut (s : Traffic) (i : Nat) (request : Request) : Prop :=
  s.calls[i]? = some ⟨request, .arriving⟩
    ∨ s.calls[i]? = some ⟨request, .done (.error .circuitOpen)⟩

theorem KeptOut.move {s : Traffic} {i j : Nat} {request : Request} {old new : Call} {queue : Queue}
    (h : s.KeptOut i request) (hcall : s.calls[j]? = some old) (harriving : old.entry ≠ .arriving)
    (hrefused : old.entry ≠ .done (.error .circuitOpen)) :
    (s.move j new queue).KeptOut i request := by
  have hother : j ≠ i := by
    rintro rfl
    rcases h with h | h
    · rw [hcall] at h
      cases h
      exact harriving rfl
    · rw [hcall] at h
      cases h
      exact hrefused rfl
  rw [KeptOut, Traffic.move, getElem?_set_of_getElem? new i hcall, if_neg hother]
  exact h

/-- An open breaker stays open, and keeps out what has not passed it. -/
theorem Turned.keptOut {s t : Traffic} (hturned : s.Turned t) (hopen : s.queue.isOpen = true) :
    t.queue.isOpen = true ∧ ∀ i request, s.KeptOut i request → t.KeptOut i request := by
  cases hturned with
  | @refused j request hcall _ =>
    refine ⟨hopen, ?_⟩
    intro i request' h
    rw [KeptOut, move, getElem?_set_of_getElem? _ i hcall]
    split
    · rename_i hji
      subst hji
      rcases h with h | h
      · rw [hcall] at h
        cases h
        exact .inr rfl
      · rw [hcall] at h
        cases h
    · exact h
  | admitted hcall hclosed =>
    rw [hopen] at hclosed
    cases hclosed
  | numbered hcall => exact ⟨hopen, fun i request h => h.move hcall (by simp) (by simp)⟩
  | @raised j sequence request hcall =>
    refine ⟨Queue.isOpen_raise hopen, fun i request' h => ?_⟩
    have hmoved : (s.move j ⟨request, .pushing sequence⟩ s.queue.raise).KeptOut i request' :=
      h.move hcall (by simp) (by simp)
    exact hmoved
  | @pushed j sequence request hcall hfree =>
    refine ⟨hopen, fun i request' h => ?_⟩
    have hmoved : (s.move j ⟨request, .pushed sequence⟩ s.queue).KeptOut i request' :=
      h.move hcall (by simp) (by simp)
    exact hmoved
  | counted hcall => exact ⟨hopen, fun i request h => h.move hcall (by simp) (by simp)⟩
  | _ => exact ⟨hopen, fun i request h => h⟩

theorem keptOut_run (capacity : Nat) (requests : List Request) {earlier turns : List Turn}
    (hearlier : earlier <+: turns)
    (hopen : ((start capacity requests).run earlier).queue.isOpen = true) :
    ((start capacity requests).run turns).queue.isOpen = true
      ∧ ∀ i request, ((start capacity requests).run earlier).KeptOut i request →
        ((start capacity requests).run turns).KeptOut i request := by
  induction turns using List.reverseRecOn with
  | nil =>
    rw [List.prefix_nil.mp hearlier] at hopen ⊢
    exact ⟨hopen, fun i request h => h⟩
  | append_singleton turns turn ih =>
    rcases List.prefix_concat_iff.mp hearlier with rfl | hbefore
    · exact ⟨hopen, fun i request h => h⟩
    · obtain ⟨hstill, hkept⟩ := ih hbefore
      obtain ⟨hopen', hkept'⟩ := (turned_run capacity requests turns turn).keptOut hstill
      exact ⟨hopen', fun i request h => hkept' i request (hkept i request h)⟩

/-! ### Requests that come alone -/

/-- A request has passed the breaker and has not been accepted yet. -/
def IsOnItsWay (s : Traffic) (i : Nat) : Prop :=
  ∃ call, s.calls[i]? = some call ∧ call.entry.isOnItsWay = true

theorem not_isOnItsWay {s : Traffic} {i : Nat} {request : Request} {entry : Entry}
    (hcall : s.calls[i]? = some ⟨request, entry⟩) (h : ¬ s.IsOnItsWay i) :
    entry.isOnItsWay = false := by
  by_contra hway
  exact h ⟨_, hcall, Bool.eq_true_of_not_eq_false hway⟩

/-- A request on its way need not wait for a free place. -/
def HasPlace (s : Traffic) (i : Nat) : Prop :=
  ∀ request entry, s.calls[i]? = some ⟨request, entry⟩ → entry.HasPlace s.queue

/-- A closed breaker leaves a place to one more request. -/
theorem length_waiting_lt {s : Traffic} (hbalanced : s.Balanced) (htripped : s.Tripped)
    (hclosed : s.queue.isOpen = false) : s.queue.waiting.length < s.queue.capacity := by
  have hbelow : ¬ s.queue.capacity ≤ s.queue.highWater := by
    rw [← htripped.isOpen_iff, hclosed]
    exact Bool.false_ne_true
  have hdepth := hbalanced.depth
  have hle := htripped.depth_le
  omega

theorem HasPlace.move {s : Traffic} {i j : Nat} {old new : Call} {queue : Queue}
    (hcall : s.calls[j]? = some old) (hmine : j = i → new.entry.HasPlace queue)
    (hothers : j ≠ i →
      ∀ request entry, s.calls[i]? = some ⟨request, entry⟩ → entry.HasPlace queue) :
    (s.move j new queue).HasPlace i := by
  intro request entry hentry
  rw [Traffic.move, getElem?_set_of_getElem? new i hcall] at hentry
  split at hentry
  · rename_i hji
    cases hentry
    exact hmine hji
  · rename_i hji
    exact hothers hji request entry hentry

/-- A request keeps its place as long as no other is on its way. -/
theorem HasPlace.turned {s t : Traffic} {i : Nat} (h : s.HasPlace i) (hturned : s.Turned t)
    (hbalanced : s.Balanced) (htripped : s.Tripped)
    (halone : s.IsOnItsWay i → ∀ j, s.IsOnItsWay j → j = i) : t.HasPlace i := by
  -- When another request on its way takes a step, this one is not on its way.
  have hother {j : Nat} {call : Call} {queue : Queue} (hcall : s.calls[j]? = some call)
      (hway : call.entry.isOnItsWay = true) (hji : j ≠ i) (request : Request) (entry : Entry)
      (hentry : s.calls[i]? = some ⟨request, entry⟩) : entry.HasPlace queue := by
    apply Entry.hasPlace_of_not_isOnItsWay
    apply not_isOnItsWay hentry
    intro hmine
    exact hji (halone hmine j ⟨call, hcall, hway⟩)
  cases hturned with
  | nothing => exact h
  | refused hcall hopen =>
    refine .move hcall (fun _ => trivial) fun _ request entry hentry => ?_
    exact (h request entry hentry).congr rfl rfl le_rfl
  | admitted hcall hclosed =>
    exact .move hcall (fun _ => hclosed) fun _ request entry hentry => h request entry hentry
  | numbered hcall =>
    refine .move hcall ?_ (hother hcall rfl)
    rintro rfl
    exact h _ _ hcall
  | @raised j sequence request hcall =>
    obtain ⟨isOpen, trips, hraise⟩ := s.queue.exists_raise
    have hmoved : (s.move j ⟨request, .pushing sequence⟩ s.queue.raise).HasPlace i := by
      refine .move hcall ?_ (hother hcall rfl)
      rintro rfl
      rw [hraise]
      exact length_waiting_lt hbalanced htripped (h _ _ hcall)
    exact hmoved
  | @pushed j sequence request hcall hfree =>
    have hmoved : (s.move j ⟨request, .pushed sequence⟩
        { s.queue with waiting := s.queue.waiting ++ [{ request with sequence }] }).HasPlace i :=
      .move hcall (fun _ => trivial) (hother hcall rfl)
    exact hmoved
  | counted hcall => exact .move hcall (fun _ => trivial) (hother hcall rfl)
  | took htaking hwaiting =>
    intro request entry hentry
    refine (h request entry hentry).congr rfl rfl ?_
    rw [hwaiting]
    exact Nat.le_succ _
  | _ => exact fun request entry hentry => (h request entry hentry).congr rfl rfl le_rfl

/-- No other request is on its way while this one is. -/
def Alone (start : Traffic) (turns : List Turn) (i : Nat) : Prop :=
  ∀ earlier, earlier <+: turns → (start.run earlier).IsOnItsWay i →
    ∀ j, (start.run earlier).IsOnItsWay j → j = i

theorem hasPlace_run (capacity : Nat) (requests : List Request) {turns : List Turn} {i : Nat}
    (halone : Alone (start capacity requests) turns i) :
    ((start capacity requests).run turns).HasPlace i := by
  induction turns using List.reverseRecOn with
  | nil =>
    intro request entry hentry
    apply Entry.hasPlace_of_not_isOnItsWay
    simp only [run, List.foldl_nil, start, List.getElem?_map, Option.map_eq_some_iff] at hentry
    obtain ⟨_, -, hcall⟩ := hentry
    cases hcall
    rfl
  | append_singleton turns turn ih =>
    have hplace := ih fun earlier hearlier =>
      halone earlier (hearlier.trans (List.prefix_append _ _))
    obtain ⟨hbalanced, htripped, -⟩ := preserved_run capacity requests turns
    exact hplace.turned (turned_run capacity requests turns turn) hbalanced htripped
      (halone turns (List.prefix_append _ _))

theorem KeptOut.enteredAt? {s : Traffic} {i : Nat} {request : Request} (h : s.KeptOut i request) :
    s.enteredAt? i = none := by
  rcases h with h | h
  · rw [Traffic.enteredAt?, h]
    rfl
  · rw [Traffic.enteredAt?, h]
    rfl

theorem Logged.enteredAt?_eq_some_iff {requests : List Request} {s : Traffic} {i : Nat}
    {request : Request} (h : s.Logged requests) : s.enteredAt? i = some request
      ↔ ∃ original entry sequence, requests[i]?.map (fun request => Call.mk request .arriving)
          = some ⟨original, .arriving⟩
        ∧ s.calls[i]? = some ⟨original, entry⟩ ∧ entry.entered? = some sequence
        ∧ request = { original with sequence } := by
  rw [← h.requests, List.getElem?_map, Traffic.enteredAt?]
  cases hcall : s.calls[i]? with
  | none => simp
  | some call =>
    obtain ⟨original, entry⟩ := call
    cases hentered : entry.entered? <;> simp [hentered, eq_comm]

/-- Neither a request nor the consumer is between two steps. -/
def AtRest (s : Traffic) : Prop := s.taking = .idle ∧ ∀ i, ¬ s.IsOnItsWay i

theorem AtRest.countP_eq_zero {s : Traffic} (h : s.AtRest) {p : Call → Bool}
    (hp : ∀ call, p call = true → call.entry.isOnItsWay = true) : s.calls.countP p = 0 := by
  rw [List.countP_eq_zero]
  intro call hmem hcall
  obtain ⟨i, hi⟩ := List.getElem?_of_mem hmem
  exact h.2 i ⟨call, hi, hp call hcall⟩

/-- When nobody is between two steps, the counts are those of what is in the queue and what has come
out of it. -/
theorem Balanced.of_atRest {s : Traffic} (h : s.Balanced) (hrest : s.AtRest) :
    s.queue.enqueued = s.queue.dequeued + s.queue.depth
      ∧ s.queue.depth = s.queue.waiting.length := by
  have hpushing := hrest.countP_eq_zero Call.isOnItsWay_of_isPushing
  have hpushed := hrest.countP_eq_zero Call.isOnItsWay_of_isPushed
  have hdepth := h.depth
  have hentered := h.entered
  have hdequeued := h.dequeued
  have horder := congrArg List.length h.order
  rw [List.length_map, List.length_append, List.length_append] at horder
  rw [hrest.1] at hdepth horder
  simp only [Taking.held, Taking.inHand, List.length_nil] at hdepth horder
  exact ⟨by omega, by omega⟩

end Traffic

/-! ## The queue in order -/

/-- What is in order in the traffic now, after turns of requests and of the consumer. -/
structure Orderly (start : Traffic) (turns : List Turn) (now : Traffic) : Prop where
  /-- The capacity is what it was. -/
  capacity : now.queue.capacity = start.queue.capacity
  /-- The consumer hands on what came into the queue, from the first request on, in the order in
  which it came in. -/
  order : now.entered.map Prod.snd = now.handedOut ++ now.taking.inHand ++ now.queue.waiting
  /-- A request came into the queue once. -/
  nodup : (now.entered.map Prod.fst).Nodup
  /-- It came in when its call had pushed it, and with its number. -/
  mem_entered_iff (i : Nat) (request : Request) : (i, request) ∈ now.entered
    ↔ ∃ original entry sequence, start.calls[i]? = some ⟨original, .arriving⟩
      ∧ now.calls[i]? = some ⟨original, entry⟩ ∧ entry.entered? = some sequence
      ∧ request = { original with sequence }
  /-- No two requests have the same number. -/
  sequence_inj {i j n : Nat} : now.sequenceAt? i = some n → now.sequenceAt? j = some n → i = j
  /-- The queue never holds more requests than its capacity. -/
  bounded : now.queue.waiting.length ≤ now.queue.capacity
  /-- When the depth is lowered it is not zero. -/
  depth_pos (request : Request) : now.taking = .took request → 0 < now.queue.depth
  /-- The breaker has opened once when a depth has reached the capacity. -/
  tripped : (∃ earlier, earlier <+: turns
      ∧ now.queue.capacity ≤ (start.run earlier).queue.depth) → now.answers.count true = 1
  /-- It has not opened while every depth was below the capacity. -/
  not_tripped : (∀ earlier, earlier <+: turns →
      (start.run earlier).queue.depth < now.queue.capacity) → now.answers.count true = 0
  /-- The breaker has counted how often it was the one to open. -/
  trips : now.queue.trips = now.answers.count true
  /-- An open breaker never closes, and refuses the requests that come to it. -/
  keptOut (earlier : List Turn) : earlier <+: turns → (start.run earlier).queue.isOpen = true →
    now.queue.isOpen = true
      ∧ ∀ i request, (start.run earlier).calls[i]? = some ⟨request, .arriving⟩ →
        now.KeptOut i request ∧ ∀ pushed, (i, pushed) ∉ now.entered
  /-- When nobody is between two steps, the counts are those of what is in the queue and what has
  come out of it, and the breaker is open exactly when the largest depth has reached the
  capacity. -/
  atRest : now.AtRest → now.queue.enqueued = now.queue.dequeued + now.queue.depth
    ∧ now.queue.depth = now.queue.waiting.length
    ∧ IsGreatest {depth | ∃ earlier, earlier <+: turns ∧ (start.run earlier).queue.depth = depth}
      now.queue.highWater
    ∧ (now.queue.isOpen = true ↔ now.queue.capacity ≤ now.queue.highWater)
  /-- A request that is alone on its way never waits for a free place. -/
  free (i sequence : Nat) (request : Request) : Traffic.Alone start turns i →
    now.calls[i]? = some ⟨request, .pushing sequence⟩ →
      now.queue.waiting.length < now.queue.capacity

/-- Whatever turns any number of requests and the consumer take, the queue is in order. -/
theorem run_orderly (capacity : Nat) (requests : List Request) (turns : List Turn) :
    Orderly (.start capacity requests) turns ((Traffic.start capacity requests).run turns) := by
  obtain ⟨hbalanced, htripped, hlogged⟩ := Traffic.preserved_run capacity requests turns
  have hlargest := Traffic.isGreatest_highWater capacity requests turns
  have hkept {earlier : List Turn} (hearlier : earlier <+: turns) :=
    Traffic.keptOut_run capacity requests hearlier
  have hplace {i : Nat} (halone : Traffic.Alone (Traffic.start capacity requests) turns i) :=
    Traffic.hasPlace_run capacity requests halone
  have hcapacity : ((Traffic.start capacity requests).run turns).queue.capacity
      = (Traffic.start capacity requests).queue.capacity :=
    Traffic.capacity_run capacity requests turns
  generalize (Traffic.start capacity requests).run turns = now at *
  refine ⟨hcapacity, hbalanced.order, hlogged.nodup, ?_, hlogged.sequence_inj, hbalanced.bounded,
    ?_, ?_, ?_, ?_, ?_, ?_, ?_⟩
  · intro i request
    rw [hlogged.mem_entered_iff, Traffic.start, List.getElem?_map]
    exact hlogged.enteredAt?_eq_some_iff
  · intro request htaking
    have hdepth := hbalanced.depth
    rw [htaking, Taking.held] at hdepth
    omega
  · rintro ⟨earlier, hearlier, hreached⟩
    have hopen := htripped.isOpen_iff.mpr (hreached.trans (hlargest.2 ⟨earlier, hearlier, rfl⟩))
    rw [htripped.answers, hopen]
    rfl
  · intro hbelow
    obtain ⟨⟨earlier, hearlier, hreached⟩, -⟩ := hlargest
    have hclosed : now.queue.isOpen = false := by
      rw [← Bool.not_eq_true, htripped.isOpen_iff, ← hreached]
      exact Nat.not_le_of_lt (hbelow earlier hearlier)
    rw [htripped.answers, hclosed]
    rfl
  · exact htripped.trips.trans htripped.answers.symm
  · intro earlier hearlier hopen
    obtain ⟨hstill, hout⟩ := hkept hearlier hopen
    refine ⟨hstill, fun i request hcall => ?_⟩
    have hkeptOut := hout i request (.inl hcall)
    refine ⟨hkeptOut, fun pushed hpushed => ?_⟩
    rw [hlogged.mem_entered_iff, hkeptOut.enteredAt?] at hpushed
    cases hpushed
  · intro hrest
    obtain ⟨hcounts, hdepth⟩ := hbalanced.of_atRest hrest
    exact ⟨hcounts, hdepth, hlargest, htripped.isOpen_iff⟩
  · intro i sequence request halone hcall
    exact hplace halone request _ hcall

-- Two requests pass the breaker together, and the second one finds the queue full.
example :
    let request : Request := ⟨[], "device-udp:192.0.2.10", .epoch, {}, 0⟩
    let turns : List Turn :=
      [.call 0, .call 1, .call 0, .call 1, .call 0, .call 1, .call 0, .call 1]
    let now := (Traffic.start 1 [request, request]).run turns
    now.answers = [true, false] ∧ now.queue.waiting.length = 1 ∧ now.queue.depth = 2
      ∧ now.calls.map Call.isPushing = [false, true] := by
  decide

end FieldTelemetry.Intake
