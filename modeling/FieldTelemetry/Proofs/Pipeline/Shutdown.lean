import FieldTelemetry.Proofs.Pipeline.Accounting
import FieldTelemetry.Proofs.Pipeline.Breakdown
import FieldTelemetry.Proofs.Pipeline.Flush
import Mathlib.Data.Prod.Lex

/-!
# Nothing that was accepted is lost

Wherever producers, tasks and the consumer are when the word to stop comes, every request whose call
was accepted is processed once, in the order of the queue, and its work is done before the consumer
ends; a request whose call was refused is never processed. And the consumer does end, as every turn
of it or of its oldest task brings the end nearer.

The only exception is a request that breaks the consumer down: those behind it are lost.

## Main definitions

* `Service.remaining`: what is left to do until the consumer has ended
* `Service.Fair`: a schedule in which the consumer and the oldest task have a turn again and again
* `Service.Accounted`: what has become of the requests

## Main results

* `Service.exists_over`: the consumer ends when it is to stop or no producer is left
* `Service.accounted_and_over`: the requests are accounted for after any turns, and the consumer
  ends
* `Service.isDown_of_offset_le`: requests that do not break the consumer down
* `Service.sequential_of_ended`: what it leaves is what a sequential program would have left
* `Service.stranded_never_handled`: a request that was accepted and is lost
-/

namespace FieldTelemetry.Pipeline.Service

open Intake (IntakeError Request Taking Traffic)
open Stamp (StampStore)
open Store (Backend)
open Time (Instant)
open Wire (Message)

variable {σ τ : Type} [Backend σ] [StampStore τ] {s t : Service σ τ} {requests : List Request}
  {initial : Pipeline σ τ}

/-! ## What is left to do -/

/-- The end of the consumer is near: it is told to stop, or no producer is left. -/
def Leaves (s : Service σ τ) : Prop := s.isTold = true ∨ s.traffic.queue.isDeserted = true

/-- The consumer has ended, or a request has broken it down. -/
def Over (s : Service σ τ) : Prop := s.stage = .ended ∨ s.isDown = true

omit [Backend σ] [StampStore τ] in
theorem isDown_of_not_over (h : ¬ s.Over) : s.isDown = false := by
  rw [← Bool.not_eq_true]
  exact fun hdown => h (.inr hdown)

/-- How many stages are before a consumer. -/
def stagesLeft : Stage → Nat
  | .running => 2
  | .draining => 1
  | .ended => 0

/-- How many requests the consumer takes out before the next stage. It takes out no more when it is
told to stop. -/
def toTake (s : Service σ τ) : Nat :=
  if s.stage = .running ∧ s.isTold = true then 0 else s.traffic.queue.waiting.length

/-- How many steps are left until a request is processed that was taken out. -/
def toProcess (s : Service σ τ) : Nat :=
  match s.held, s.traffic.taking with
  | some _, _ => 1
  | none, .lowered _ => 2
  | none, .took _ => 3
  | none, .idle => 0

/-- What is left to do until the consumer has ended. Only the first of these that changes counts, as
a request may give rise to any number of parts and a part to tasks. -/
def remaining (s : Service σ τ) : ℕ ×ₗ ℕ ×ₗ ℕ ×ₗ ℕ ×ₗ ℕ :=
  toLex (stagesLeft s.stage, toLex (s.toTake, toLex (s.toProcess,
    toLex (s.session.due.length, s.session.left))))

omit [Backend σ] [StampStore τ] in
theorem remaining_lt_iff : t.remaining < s.remaining ↔ stagesLeft t.stage < stagesLeft s.stage
    ∨ stagesLeft t.stage = stagesLeft s.stage ∧ (t.toTake < s.toTake
      ∨ t.toTake = s.toTake ∧ (t.toProcess < s.toProcess
        ∨ t.toProcess = s.toProcess ∧ (t.session.due.length < s.session.due.length
          ∨ t.session.due.length = s.session.due.length ∧ t.session.left < s.session.left))) := by
  simp only [remaining, Prod.Lex.toLex_lt_toLex]

omit [Backend σ] [StampStore τ] in
theorem tasks_ne_nil_of_remaining_eq (h : t.remaining = s.remaining)
    (htasks : s.session.tasks ≠ []) : t.session.tasks ≠ [] := by
  have hleft : t.session.left = s.session.left :=
    congrArg (fun rest => (ofLex (ofLex (ofLex (ofLex rest).2).2).2).2) h
  rw [Ne, ← Session.left_eq_zero_iff] at htasks ⊢
  rw [hleft]
  exact htasks

theorem Leaves.turned (h : s.Leaves) (hturned : s.Turned t) : t.Leaves := by
  cases hturned with
  | nothing => exact h
  | told => exact .inl rfl
  | deserted => exact .inr rfl
  | called hthere i => exact h.imp_right fun hleft => (s.traffic.call_frame i).2.2.2.trans hleft
  | worked hworks => cases hworks <;> exact h

theorem Over.turned (h : s.Over) (hturned : s.Turned t) : t.Over := by
  cases hturned with
  | worked hworks =>
    obtain hended | hdown := h
    · -- The consumer does nothing more, and the other steps do not matter.
      refine .inl ?_
      cases hworks with
      | took hfree htakes hwaiting => exact absurd hended htakes.stage_ne_ended
      | closed hfree hstage hlast =>
        rw [hended] at hstage
        cases hstage
      | ended => rfl
      | _ => exact hended
    · refine .inr ?_
      cases hworks with
      | brokeDown => rfl
      | _ => exact hdown
  | _ => exact h

/-- Every step of the consumer and of a task brings the end of a consumer nearer. -/
theorem remaining_lt (hstaged : s.Staged) (hworks : s.Works t) (hup : t.isDown = false) :
    t.remaining < s.remaining := by
  rw [remaining_lt_iff]
  cases hworks with
  | @took request rest hfree htakes hwaiting =>
    -- The consumer takes out a request only while those in the queue count.
    have hless : toTake { s with traffic :=
        { s.traffic with queue := s.traffic.queue.pop rest, taking := .took request } }
          < s.toTake := by
      rw [toTake, toTake, hwaiting]
      obtain ⟨hstage, htold⟩ | hstage := htakes
      · simp [hstage, htold, Intake.Queue.pop]
      · simp [hstage, Intake.Queue.pop]
    exact .inr ⟨rfl, .inl hless⟩
  | lowered hheld hdue htaking =>
    refine .inr ⟨rfl, .inr ⟨rfl, .inl ?_⟩⟩
    simp [toProcess, hheld, htaking]
  | received hheld hdue htaking =>
    refine .inr ⟨rfl, .inr ⟨rfl, .inl ?_⟩⟩
    simp [toProcess, hheld, htaking]
  | answered hheld hup hprocess =>
    refine .inr ⟨rfl, .inr ⟨rfl, .inl ?_⟩⟩
    simp [toProcess, answer, hheld, (hstaged.held _ hheld).2]
  | brokeDown hheld hup' hprocess => cases hup
  | handedOut hheld hdue =>
    refine .inr ⟨rfl, .inr ⟨rfl, .inr ⟨rfl, .inl ?_⟩⟩⟩
    rw [hdue]
    exact Nat.lt_succ_self _
  | closed hfree hstage hlast =>
    refine .inl ?_
    rw [hstage]
    exact Nat.lt_succ_self _
  | ended hfree hstage hwaiting htasks =>
    refine .inl ?_
    rw [hstage]
    exact Nat.lt_succ_self _
  | advanced hstep =>
    refine .inr ⟨rfl, .inr ⟨rfl, .inr ⟨rfl, .inr ⟨?_, hstep.left_lt⟩⟩⟩⟩
    rw [hstep.frame.1]

omit [Backend σ] in
/-- Requests on their way into the queue do not put off the end. -/
theorem toTake_call (hstaged : s.Staged) (hleaves : s.Leaves)
    (hthere : s.traffic.queue.isDeserted = false) (i : Nat) :
    toTake { s with traffic := s.traffic.turn (.call i) } = s.toTake := by
  have htold : s.isTold = true := hleaves.resolve_right (by rw [hthere]; exact Bool.false_ne_true)
  rw [toTake, toTake]
  obtain ⟨-, hwaiting⟩ | ⟨hopen, -⟩ := s.traffic.entered_call i
  · rw [hwaiting]
  · -- The queue is still open, so the consumer will not take out what comes in before it closes.
    have hstage : s.stage = .running := by
      by_contra hstage
      rw [hstaged.closed_iff.mpr (.inl hstage)] at hopen
      cases hopen
    rw [if_pos ⟨hstage, htold⟩, if_pos ⟨hstage, htold⟩]

theorem remaining_le (hstaged : s.Staged) (hleaves : s.Leaves) (hturned : s.Turned t)
    (hup : t.isDown = false) : t.remaining ≤ s.remaining := by
  cases hturned with
  | nothing => exact le_rfl
  | told =>
    have hless : toTake { s with isTold := true } ≤ s.toTake := by
      rw [toTake, toTake]
      by_cases hstage : s.stage = .running <;> simp [hstage]
    obtain hlt | heq := hless.lt_or_eq
    · refine le_of_lt ?_
      exact remaining_lt_iff.mpr (.inr ⟨rfl, .inl hlt⟩)
    · rw [remaining, remaining, heq]
      exact le_rfl
  | deserted => exact le_rfl
  | called hthere i =>
    have htaking := (s.traffic.call_frame i).1
    rw [remaining, remaining, toTake_call hstaged hleaves hthere, toProcess, toProcess, htaking]
  | worked hworks => exact (remaining_lt hstaged hworks hup).le

/-! ## Schedules -/

/-- The state after the first turns of a schedule. -/
def after (s : Service σ τ) (schedule : Nat → Turn) (n : Nat) : Service σ τ :=
  s.run ((List.range n).map schedule)

theorem after_succ (s : Service σ τ) (schedule : Nat → Turn) (n : Nat) :
    s.after schedule (n + 1) = (s.after schedule n).turn (schedule n) := by
  rw [after, List.range_succ, List.map_append, List.map_singleton, run_concat]
  rfl

/-- The consumer and the oldest task have a turn again and again. -/
structure Fair (schedule : Nat → Turn) : Prop where
  /-- The consumer has a turn again. -/
  consumer : ∀ n, ∃ m ≥ n, ∃ clock, schedule m = .consumer clock
  /-- The oldest task has a turn again. -/
  task : ∀ n, ∃ m ≥ n, ∃ now, schedule m = .task 0 now

/-- A consumer that has not ended either goes on in its turn or waits for tasks. -/
theorem consumer_turn (hstaged : s.Staged) (hleaves : s.Leaves) (hover : ¬ s.Over)
    (clock : Nat → Instant) (hup : (s.turn (.consumer clock)).isDown = false) :
    (s.turn (.consumer clock)).remaining < s.remaining ∨ s.session.tasks ≠ [] := by
  have hthere := isDown_of_not_over hover
  have hturn : s.turn (.consumer clock) = s.consume clock := by
    rw [turn, if_neg (by rw [hthere]; exact Bool.false_ne_true)]
  rw [hturn] at hup ⊢
  obtain hworks | ⟨-, hwaits⟩ := works_or_waits hthere clock
  · exact .inl (remaining_lt hstaged hworks hup)
  · cases hwaits with
    | request hstage htold hthere =>
      obtain htold' | hdeserted := hleaves
      · rw [htold] at htold'
        cases htold'
      · rw [hthere] at hdeserted
        cases hdeserted
    | tasks hfree hstage hwaiting htasks => exact .inr htasks
    | nothing hstage => exact absurd (.inl hstage) hover

/-- The oldest task goes on in its turn. -/
theorem task_turn (hlined : s.session.Lined) (htasks : s.session.tasks ≠ []) (now : Instant) :
    (s.turn (.task 0 now)).remaining < s.remaining := by
  have hdue : (s.session.advance 0 now).due = s.session.due := by
    obtain hsame | hstep := s.session.advance_cases 0 now
    · rw [hsame]
    · exact hstep.frame.1
  have hless := hlined.left_advance_lt htasks now
  refine remaining_lt_iff.mpr (.inr ⟨rfl, .inr ⟨rfl, .inr ⟨rfl, .inr ⟨?_, hless⟩⟩⟩⟩)
  exact congrArg List.length hdue

section Schedules

variable {schedule : Nat → Turn}

theorem kept_after (capacity : Nat) (requests : List Request) (initial : Pipeline σ τ)
    (schedule : Nat → Turn) (n : Nat) :
    ((start capacity requests initial).after schedule n).Kept requests initial :=
  kept_run capacity requests initial _

theorem leaves_after {first n : Nat} (hfirst : schedule first = .signal ∨ schedule first = .desert)
    (hlater : first < n) : (s.after schedule n).Leaves := by
  induction n, hlater using Nat.le_induction with
  | base =>
    rw [after_succ]
    obtain hsignal | hdesert := hfirst
    · rw [hsignal]
      exact .inl rfl
    · rw [hdesert]
      exact .inr rfl
  | succ n hlater ih =>
    rw [after_succ]
    exact ih.turned (turned _ _)

theorem over_after {n m : Nat} (h : (s.after schedule n).Over) (hlater : n ≤ m) :
    (s.after schedule m).Over := by
  induction m, hlater using Nat.le_induction with
  | base => exact h
  | succ m hlater ih =>
    rw [after_succ]
    exact ih.turned (turned _ _)

section Never

variable {first n m : Nat} (hkept : ∀ n, (s.after schedule n).Kept requests initial)
  (hnever : ∀ n, ¬ (s.after schedule n).Over)
  (hfirst : schedule first = .signal ∨ schedule first = .desert)

include hkept hnever hfirst

/-- From the word to stop on, nothing puts off the end. -/
theorem remaining_after_le (hlater : first < n) (hnm : n ≤ m) :
    (s.after schedule m).remaining ≤ (s.after schedule n).remaining := by
  induction m, hnm using Nat.le_induction with
  | base => exact le_rfl
  | succ m hnm ih =>
    refine le_trans ?_ ih
    have hleaves : (s.after schedule m).Leaves := leaves_after hfirst (hlater.trans_le hnm)
    have hup := isDown_of_not_over (hnever (m + 1))
    rw [after_succ] at hup ⊢
    exact remaining_le (hkept m).staged hleaves (turned _ _) hup

/-- The next turn of the consumer, or the next one of the oldest task after it, brings the end
nearer. -/
theorem exists_remaining_after_lt (hlined : Session.Lined (⟨initial, [], [], []⟩ : Session σ τ))
    (hfair : Fair schedule) (hlater : first < n) :
    ∃ m, n < m ∧ (s.after schedule m).remaining < (s.after schedule n).remaining := by
  obtain ⟨m, hm, clock, hturn⟩ := hfair.consumer n
  have hbetween := remaining_after_le hkept hnever hfirst hlater hm
  have hleaves : (s.after schedule m).Leaves := leaves_after hfirst (hlater.trans_le hm)
  have hup := isDown_of_not_over (hnever (m + 1))
  have hsooner := consumer_turn (hkept m).staged hleaves (hnever m) clock
  rw [← hturn, ← after_succ] at hsooner
  obtain hless | htasks := hsooner hup
  · exact ⟨m + 1, Nat.lt_succ_of_le hm, hless.trans_le hbetween⟩
  · obtain ⟨k, hk, now, hturn⟩ := hfair.task m
    have hnk := hm.trans hk
    refine ⟨k + 1, Nat.lt_succ_of_le hnk, ?_⟩
    -- The tasks are still there when the oldest one has its turn, or something else has changed.
    obtain hless | hsame :=
      (remaining_after_le hkept hnever hfirst (hlater.trans_le hm) hk).lt_or_eq
    · have hthen := remaining_after_le hkept hnever hfirst (hlater.trans_le hnk) (Nat.le_succ k)
      exact hthen.trans_lt (hless.trans_le hbetween)
    · have hstill := tasks_ne_nil_of_remaining_eq hsame htasks
      have hless := task_turn (hlined.run (hkept k).worked.steps) hstill now
      rw [← hturn, ← after_succ] at hless
      exact hless.trans_le (hsame.le.trans hbetween)

end Never

/-- When somebody tells the consumer to stop or all producers leave, the consumer ends unless a
request breaks it down. -/
theorem exists_over (capacity : Nat) (requests : List Request)
    (hlined : Session.Lined (⟨initial, [], [], []⟩ : Session σ τ)) (hfair : Fair schedule)
    (hleave : ∃ n, schedule n = .signal ∨ schedule n = .desert) :
    ∃ n, ((start capacity requests initial).after schedule n).Over := by
  by_contra! hnever
  obtain ⟨first, hfirst⟩ := hleave
  have hkept := kept_after capacity requests initial schedule
  -- What is left to do cannot become less for ever.
  obtain ⟨_, ⟨n, hlater, rfl⟩, hleast⟩ := wellFounded_lt.has_min
    {rest | ∃ n, first < n
      ∧ ((start capacity requests initial).after schedule n).remaining = rest}
    ⟨_, first + 1, Nat.lt_succ_self first, rfl⟩
  obtain ⟨m, hnm, hless⟩ := exists_remaining_after_lt hkept hnever hfirst hlined hfair hlater
  exact hleast _ ⟨m, hlater.trans hnm, rfl⟩ hless

end Schedules

/-! ## Accounts -/

/-- What has become of requests that come to the queue of a pipeline that was new. -/
structure Accounted (requests : List Request) (initial : Pipeline σ τ) (now : Service σ τ) :
    Prop where
  /-- The calls are those of the requests. -/
  requests : now.traffic.calls.map Intake.Call.request = requests
  /-- A request has come into the queue if its call was accepted, with its number. -/
  accepted {i sequence : Nat} {request : Request} :
    now.traffic.calls[i]? = some ⟨request, .done (.ok sequence)⟩ →
      (i, { request with sequence }) ∈ now.traffic.entered
  /-- It has not if its call was refused. -/
  refused {i : Nat} {request : Request} {error : IntakeError} :
    now.traffic.calls[i]? = some ⟨request, .done (.error error)⟩ →
      ∀ entered, (i, entered) ∉ now.traffic.entered
  /-- Whatever has come in was pushed by its call, which has been accepted or will be next. -/
  pushed {i : Nat} {entered : Request} : (i, entered) ∈ now.traffic.entered →
    ∃ request sequence, entered = { request with sequence }
      ∧ (now.traffic.calls[i]? = some ⟨request, .pushed sequence⟩
        ∨ now.traffic.calls[i]? = some ⟨request, .done (.ok sequence)⟩)
  /-- It has come in once. -/
  nodup : (now.traffic.entered.map Prod.fst).Nodup
  /-- Requests are processed in the order in which they came in, each of them once. -/
  inOrder : now.handled.map Prod.fst ++ now.held.toList <+: now.traffic.entered.map Prod.snd
  /-- While the consumer is there none is lost. -/
  complete : now.isDown = false → now.traffic.entered.map Prod.snd
    = now.handled.map Prod.fst ++ now.held.toList ++ now.traffic.taking.inHand
      ++ now.traffic.queue.waiting
  /-- The pipeline has taken the steps of a session. -/
  steps : Relation.ReflTransGen Session.Step { pipeline := initial } now.session
  /-- In it the requests that were processed have their outcomes. -/
  log : now.session.log = now.handled.flatMap fun handled =>
    handled.2.map fun outcome => (handled.1, outcome)
  /-- Every part of their work was handed out once, in its order, or is due. -/
  ledger : now.out ++ now.session.due
    = ledgerOf initial.attempts initial.outlets.length now.session.log
  /-- When the consumer has ended, every request that came in has been processed and all work is
  done. -/
  ended : now.stage = .ended → now.handled.map Prod.fst = now.traffic.entered.map Prod.snd
    ∧ now.session.due = [] ∧ now.session.tasks = [] ∧ now.isDown = false
  /-- Nothing but the request at hand breaks the consumer down: it leads out of the calendar with
  what the normalizer knows. -/
  down : now.isDown = true → ∃ request clock tally, now.held = some request
    ∧ Normalizer.processOver request clock { now.session.pipeline.state with tally }
      = .error .outOfCalendar

theorem Kept.accounted (h : s.Kept requests initial) : Accounted requests initial s := by
  obtain ⟨hstaged, ⟨hlogged, ⟨lost, hordered, hlost⟩, hhandled⟩, hworked⟩ := h
  rw [Traffic.Ordered, hhandled] at hordered
  have hcomplete (hup : s.isDown = false) : s.traffic.entered.map Prod.snd
      = s.handled.map Prod.fst ++ s.held.toList ++ s.traffic.taking.inHand
        ++ s.traffic.queue.waiting := by
    rw [hlost hup, List.append_nil] at hordered
    exact hordered
  refine ⟨hlogged.requests, ?_, ?_, ?_, hlogged.nodup, ?_, hcomplete, hworked.steps, hworked.log,
    hworked.ledger, ?_, hstaged.down⟩
  · intro i sequence request hcall
    rw [hlogged.mem_entered_iff, Traffic.enteredAt?, hcall]
    rfl
  · intro i request error hcall entered hentered
    rw [hlogged.mem_entered_iff, Traffic.enteredAt?, hcall] at hentered
    cases hentered
  · intro i entered hentered
    rw [hlogged.mem_entered_iff, Traffic.enteredAt?, Option.bind_eq_some_iff] at hentered
    obtain ⟨⟨request, entry⟩, hcall, hview⟩ := hentered
    cases entry with
    | pushed sequence =>
      cases hview
      exact ⟨request, sequence, rfl, .inl hcall⟩
    | done result =>
      cases result with
      | ok sequence =>
        cases hview
        exact ⟨request, sequence, rfl, .inr hcall⟩
      | error error => cases hview
    | _ => cases hview
  · rw [hordered, List.append_assoc, List.append_assoc]
    exact List.prefix_append _ _
  · intro hended
    obtain ⟨hfree, hwaiting, htasks⟩ := hstaged.ended hended
    refine ⟨?_, hfree.due, htasks, hfree.up⟩
    rw [hcomplete hfree.up, hfree.held, hfree.idle, hwaiting, Option.toList_none,
      Taking.inHand, List.append_nil, List.append_nil, List.append_nil]

/-- The request at hand is one that came to the queue. -/
theorem Accounted.exists_request {now : Service σ τ} (h : Accounted requests initial now)
    {request : Request} (hheld : now.held = some request) :
    ∃ original ∈ requests, ∃ sequence, request = { original with sequence } := by
  have hmem : request ∈ now.traffic.entered.map Prod.snd := by
    apply h.inOrder.subset
    rw [hheld, Option.toList_some]
    exact List.mem_append_right _ List.mem_cons_self
  obtain ⟨⟨i, _⟩, hentered, rfl⟩ := List.mem_map.mp hmem
  obtain ⟨original, sequence, heq, hcall⟩ := h.pushed hentered
  have horiginal : original ∈ now.traffic.calls.map Intake.Call.request := by
    obtain hcall | hcall := hcall
    · exact List.mem_map_of_mem (List.mem_of_getElem? hcall)
    · exact List.mem_map_of_mem (List.mem_of_getElem? hcall)
  exact ⟨original, h.requests ▸ horiginal, sequence, heq⟩

/-- Requests without offsets into the future do not break the consumer down. -/
theorem isDown_of_offset_le (capacity : Nat) (initial : Pipeline σ τ)
    (hoffset : ∀ request ∈ requests, ∀ parts, Wire.split request.payload = .ok parts →
      ∀ octets ∈ parts, ∀ m, Message.decode octets = .ok m → m.offset ≤ 0) (turns : List Turn) :
    ((start capacity requests initial).run turns).isDown = false := by
  have haccounted := (kept_run capacity requests initial turns).accounted
  rw [← Bool.not_eq_true]
  intro hdown
  obtain ⟨request, clock, tally, hheld, hprocess⟩ := haccounted.down hdown
  obtain ⟨original, horiginal, sequence, rfl⟩ := haccounted.exists_request hheld
  obtain ⟨outcomes, state, hanswer, -⟩ : ∃ outcomes state,
      Normalizer.processOver { original with sequence } clock
        { ((start capacity requests initial).run turns).session.pipeline.state with tally }
          = .ok (outcomes, state) ∧ Normalizer.Answers original.payload outcomes :=
    Normalizer.answers_of_offset_le (hoffset original horiginal)
  rw [hanswer] at hprocess
  cases hprocess

section New

variable (capacity : Nat) (requests : List Request) (settings : Settings)
  (outlets : List Delivery.Outlet) (backend : σ) (files : τ)

/-- Whatever turns producers, the consumer, its tasks and whoever stops it take, all requests that
were accepted are accounted for, and once the consumer is to stop or no producer is left it comes to
its end, unless a request breaks it down. -/
theorem accounted_and_over :
    (∀ turns, Accounted requests (.new settings outlets backend files)
      ((start capacity requests (.new settings outlets backend files)).run turns))
    ∧ ∀ schedule, Fair schedule → (∃ n, schedule n = .signal ∨ schedule n = .desert) →
      ∃ n, ∀ m, n ≤ m →
        ((start capacity requests
          (.new settings outlets backend files)).after schedule m).Over := by
  have hlined : Session.Lined (⟨.new settings outlets backend files, [], [], []⟩ : Session σ τ) :=
    .start (fun shelf => by cases shelf <;> rfl) rfl
  refine ⟨fun turns => ?_, fun schedule hfair hleave => ?_⟩
  · exact (kept_run capacity requests _ turns).accounted
  · obtain ⟨n, hover⟩ := exists_over capacity requests hlined hfair hleave
    exact ⟨n, fun m hlater => over_after hover hlater⟩

end New

/-- Over a memory the store, the sinks and the operators have at the end what a sequential program
would have left, that handles what came into the queue, one request after the other. -/
theorem sequential_of_ended {capacity : Nat} {settings : Settings}
    {outlets : List Delivery.Outlet} {memory : Store.Memory} {files : τ} {turns : List Turn}
    (hattempts : 0 < settings.attempts)
    (hmemory : ∀ (shelf : Shelf) (id : String), Store.Survive (memory.snapshot shelf.kind id))
    {now : Service Store.Memory τ}
    (hnow : (start capacity requests (.new settings outlets memory files)).run turns = now)
    (hended : now.stage = .ended)
    (hsurvive : ∀ reading ∈ readings now.session.log, Store.Survive reading.2) :
    Sequential (.new settings outlets memory files) now.session.log now.session.pipeline := by
  subst hnow
  obtain ⟨hstaged, -, hworked⟩ := kept_run capacity requests
    (Pipeline.new settings outlets memory files) turns
  have hkept := (Session.kept_new settings outlets memory files hmemory).run hattempts hworked.steps
    hsurvive
  obtain ⟨hfree, -, htasks⟩ := hstaged.ended hended
  obtain ⟨out, hout, hbooks⟩ := hkept.books
  -- Nothing is due and no task is at work, so everything of the log is done.
  rw [hfree.due, List.append_nil] at hout
  rw [← hout, htasks] at hbooks
  exact Session.sequential_of_books hkept.genuine hbooks

/-! ## A schedule -/

/-- A request with a message of a telephone. -/
def phoneRequest : Request :=
  { Normalizer.plainRequest with payload :=
      ((Message.empty.set .deviceType (4 : Int32)).set .note "status").encode }

/-- A queue with a new pipeline to which the request comes. -/
def phoneStart : Service Store.Memory Store.Folder :=
  start 1 [phoneRequest] (.new {} [] default .empty)

/-- A request comes in, the consumer is told to stop, and then it and the oldest task take turns. -/
def promptSchedule (n : Nat) : Turn :=
  if n < 5 then .call 0 else if n = 5 then .signal
  else if n % 2 = 0 then .consumer fun _ => .epoch else .task 0 .epoch

/-- With the schedule, the request is accounted for and the consumer comes to its end. -/
theorem over_promptSchedule :
    Fair promptSchedule ∧ (∃ n, promptSchedule n = .signal ∨ promptSchedule n = .desert)
      ∧ (∀ turns, Accounted [phoneRequest] (.new {} [] default .empty) (phoneStart.run turns))
      ∧ ∃ n, ∀ m, n ≤ m → (phoneStart.after promptSchedule m).Over := by
  have hfair : Fair promptSchedule := by
    refine ⟨fun n => ⟨2 * (n + 3), by omega, fun _ => .epoch, ?_⟩,
      fun n => ⟨2 * (n + 3) + 1, by omega, .epoch, ?_⟩⟩
    · rw [promptSchedule, if_neg (by omega), if_neg (by omega), if_pos (by omega)]
    · rw [promptSchedule, if_neg (by omega), if_neg (by omega), if_neg (by omega)]
  have hleave : ∃ n, promptSchedule n = .signal ∨ promptSchedule n = .desert := ⟨5, .inl rfl⟩
  obtain ⟨haccounted, hover⟩ := accounted_and_over 1 [phoneRequest] {} []
    (default : Store.Memory) Store.Folder.empty
  exact ⟨hfair, hleave, haccounted, hover promptSchedule hfair hleave⟩

-- The consumer ends when the command of the request has been delivered.
example :
    let now := phoneStart.after promptSchedule 24
    now.stage = .ended ∧ now.handled.length = 1 ∧ now.out.length = 1
      ∧ now.session.pipeline.desk.commands.length = 1 := by
  decide +kernel

/-! ## A request that breaks the consumer down -/

/-- Nothing is handled when the consumer is gone. -/
theorem handled_run_of_down (h : s.isDown = true) (turns : List Turn) :
    (s.run turns).handled = s.handled := by
  have hrun : (s.run turns).isDown = true ∧ (s.run turns).handled = s.handled := by
    induction turns using List.reverseRecOn with
    | nil => exact ⟨h, rfl⟩
    | append_singleton turns turn ih =>
      obtain ⟨hdown, hsame⟩ := ih
      rw [run_concat]
      cases turn with
      | consumer clock =>
        rw [Service.turn, if_pos hdown]
        exact ⟨hdown, hsame⟩
      | call position =>
        rw [Service.turn]
        split <;> exact ⟨hdown, hsame⟩
      | _ => exact ⟨hdown, hsame⟩
  exact hrun.2

/-- A request that comes behind one that breaks the consumer down. -/
def strandedRequest : Request :=
  { Normalizer.lateRequest with payload :=
      ((Message.empty.set .deviceId (100 : UInt32)).set .tube0 (36 : UInt32)).encode }

/-- Both requests are accepted before the consumer takes out the first one. -/
def strandingTurns : List Turn :=
  List.replicate 5 (.call 0) ++ List.replicate 5 (.call 1) ++ .signal
    :: List.replicate 5 (.consumer fun _ => .epoch)

/-- A queue with a new pipeline to which both requests come. -/
def strandedStart : Service Store.Memory Store.Folder :=
  start 5 [Normalizer.lateRequest, strandedRequest] (.new {} [{}] default .empty)

/-- A request is accepted, the consumer is told to stop, and whatever turns follow, the request is
never handled. -/
theorem stranded_never_handled :
    (strandedStart.run strandingTurns).traffic.calls[1]? = some ⟨strandedRequest, .done (.ok 2)⟩
      ∧ (strandedStart.run strandingTurns).isTold = true
      ∧ ∀ more, ((strandedStart.run strandingTurns).run more).handled = [] := by
  have haccepted : (strandedStart.run strandingTurns).traffic.calls[1]?.any (fun call =>
      call.request = strandedRequest ∧ call.entry.sequence? = some 2
        ∧ call.entry.isOnItsWay = false) = true := by
    decide +kernel
  have hstate : (strandedStart.run strandingTurns).isTold = true
      ∧ (strandedStart.run strandingTurns).isDown = true
      ∧ (strandedStart.run strandingTurns).handled.length = 0 := by
    decide +kernel
  obtain ⟨htold, hdown, hhandled⟩ := hstate
  refine ⟨?_, htold, fun more => ?_⟩
  · cases hcall : (strandedStart.run strandingTurns).traffic.calls[1]? with
    | none =>
      rw [hcall] at haccepted
      cases haccepted
    | some call =>
      obtain ⟨request, entry⟩ := call
      rw [hcall, Option.any_some, decide_eq_true_iff] at haccepted
      obtain ⟨rfl, hsequence, hway⟩ := haccepted
      -- A call with a number that is not on its way any more has been accepted.
      cases entry with
      | done result =>
        cases result <;> cases hsequence
        rfl
      | arriving => cases hsequence
      | _ => cases hway
  · rw [handled_run_of_down hdown more]
    exact List.eq_nil_of_length_eq_zero hhandled

end FieldTelemetry.Pipeline.Service
