import FieldTelemetry.Proofs.Pipeline.Breakdown

/-!
# What a run of requests counts

Every message ends in one of five ways, and so does a request that does not hold the messages that
it announces. So the counts of a run account for its requests, for their messages and for all
outcomes, up to a request that breaks the collector down.

## Main definitions

* `Outcome.countsAs`: the things that an outcome is counted as
* `partsOf`, `messageCount`: the messages that a payload holds, and how many requests hold
* `answerAll`: the outcomes of requests, until one of them breaks the collector down

## Main results

* `sum_shareOf`: the endings account for all outcomes
* `count_processMessage`, `count_processOver`: what a message and a request add to the counts
* `counts_answerAll`: the counts of a run of requests
-/

namespace FieldTelemetry.Pipeline

open Intake (Request)
open Stamp (StampStore)
open Time (Instant)
open Wire (Message)

/-! ## Outcomes and counters -/

/-- The outcome is counted as such a thing. -/
def Outcome.countsAs : Outcome → Counter → Bool
  | .accepted _, .accepted => true
  | .accepted record, .degraded => record.approximated
  | .duplicate _, .duplicates => true
  | .command _, .commands => true
  | .rejected .unstampable _, .unstampable => true
  | .rejected .framing _, .malformed
  | .rejected .malformed _, .malformed
  | .rejected .unidentified _, .malformed => true
  | _, _ => false

/-- The outcome is that of a request which does not hold the messages that it announces. -/
def Outcome.isFraming : Outcome → Bool
  | .rejected .framing _ => true
  | _ => false

/-- One when an outcome is counted as a thing. -/
def Outcome.share (outcome : Outcome) (counter : Counter) : Nat :=
  if outcome.countsAs counter then 1 else 0

/-- Outcomes are not counted as requests or messages. -/
theorem Outcome.share_eq_zero (outcome : Outcome) {counter : Counter}
    (h : counter = .requests ∨ counter = .messages) : outcome.share counter = 0 := by
  rcases h with rfl | rfl <;> rcases outcome with _ | _ | _ | ⟨_ | _ | _ | _, _⟩ <;> rfl

/-- The counters of the ways in which a message or a request ends. -/
def Counter.endings : List Counter :=
  [.accepted, .duplicates, .malformed, .unstampable, .commands]

/-- Every outcome is counted as one ending. -/
theorem Outcome.sum_share (outcome : Outcome) : (Counter.endings.map outcome.share).sum = 1 := by
  rcases outcome with _ | _ | _ | ⟨_ | _ | _ | _, _⟩ <;> rfl

/-- The outcomes that are counted as a thing. -/
def shareOf (outcomes : List Outcome) (counter : Counter) : Nat :=
  outcomes.countP (·.countsAs counter)

theorem shareOf_cons (outcome : Outcome) (outcomes : List Outcome) (counter : Counter) :
    shareOf (outcome :: outcomes) counter = outcome.share counter + shareOf outcomes counter := by
  rw [shareOf, List.countP_cons, Nat.add_comm]
  rfl

/-- The endings account for all outcomes. -/
theorem sum_shareOf (outcomes : List Outcome) :
    (Counter.endings.map (shareOf outcomes)).sum = outcomes.length := by
  induction outcomes with
  | nil => rfl
  | cons outcome outcomes ih =>
    have hone := outcome.sum_share
    simp only [Counter.endings, List.map_cons, List.map_nil, List.sum_cons, List.sum_nil,
      shareOf_cons, List.length_cons] at *
    omega

/-! ## Messages -/

namespace Normalizer

variable {σ : Type} [StampStore σ] {request : Request} {octets : Octets} {now : Instant}
  {state state' : State σ} {outcome : Outcome} {m : Message}

/-- A message of a device is counted as what becomes of it. -/
theorem count_processReading {checksum : UInt32} {device : String}
    (h : processReading request checksum m device now state = .ok (outcome, state'))
    (counter : Counter) :
    state'.tally.count counter = state.tally.count counter + outcome.share counter := by
  rw [processReading] at h
  generalize state.normalizer.stamps.process device m now state.files = processed at h
  obtain ⟨result, stamps, files⟩ := processed
  cases result with
  | error error =>
    cases h
    cases counter <;> rfl
  | ok answer =>
    obtain ⟨stampOutcome, m'⟩ := answer
    dsimp only at h
    cases htime : capturedAt? m' with
    | error breakdown =>
      rw [htime] at h
      cases h
    | ok capturedAt =>
      rw [htime] at h
      cases h
      -- The record is approximated when the reading is degraded.
      cases isDegraded stampOutcome <;> cases counter <;>
        simp [Outcome.share, Outcome.countsAs, recordOf]

theorem count_processFresh {checksum : UInt32}
    (h : processFresh request checksum m now state = .ok (outcome, state')) (counter : Counter) :
    state'.tally.count counter = state.tally.count counter + outcome.share counter := by
  by_cases hsensor : m.isSensor = true
  · cases hdevice : m.entityId? with
    | none =>
      rw [processFresh_of_nobody hsensor hdevice] at h
      cases h
      cases counter <;> rfl
    | some device =>
      rw [processFresh_of_device hsensor hdevice] at h
      exact count_processReading h counter
  · rw [processFresh_of_command hsensor] at h
    cases h
    cases counter <;> rfl

/-- One when the thing is a message. -/
def messageShare (counter : Counter) : Nat := if counter = .messages then 1 else 0

/-- A message is counted as a message, and as what becomes of it. -/
theorem count_processMessage
    (h : processMessage request octets now state = .ok (outcome, state')) (counter : Counter) :
    state'.tally.count counter
      = state.tally.count counter + messageShare counter + outcome.share counter := by
  cases hdecode : Message.decode octets with
  | error error =>
    rw [processMessage_of_error hdecode] at h
    cases h
    cases counter <;> rfl
  | ok m =>
    by_cases hcopy : state.normalizer.dedup.Suppresses m.checksum now
    · rw [processMessage_of_copy hdecode hcopy] at h
      cases h
      cases counter <;> rfl
    · rw [processMessage_of_fresh hdecode hcopy] at h
      rw [count_processFresh h]
      cases counter <;> rfl

/-- The outcome of a message is not that of a request. -/
theorem isFraming_of_processMessage
    (h : processMessage request octets now state = .ok (outcome, state')) :
    outcome.isFraming = false := by
  obtain ⟨_, -, rfl, -⟩ | ⟨_, -, -, rfl, -⟩ | ⟨_, -, -, hfirst, -⟩ := processMessage_eq_ok h
  · rfl
  · rfl
  · cases hfirst <;> rfl

/-! ## Requests -/

/-- The messages that a payload holds, which are none when it does not hold those that it
announces. -/
def partsOf (payload : Octets) : List Octets :=
  match Wire.split payload with
  | .ok parts => parts
  | .error _ => []

/-- One when the thing is a request. -/
def requestShare (counter : Counter) : Nat := if counter = .requests then 1 else 0

theorem count_bump_requests (tally : Tally) (counter : Counter) :
    (tally.bump .requests).count counter = tally.count counter + requestShare counter := by
  cases counter <;> rfl

variable {outcomes : List Outcome}

/-- Messages are counted as messages, and each as what becomes of it. -/
theorem count_processTimed {messages : List (Octets × Instant)}
    (h : processTimed request messages state = .ok (outcomes, state')) :
    (∀ counter, state'.tally.count counter
        = state.tally.count counter + messages.length * messageShare counter
          + shareOf outcomes counter)
      ∧ outcomes.length = messages.length ∧ outcomes.countP Outcome.isFraming = 0 := by
  induction messages generalizing state outcomes with
  | nil =>
    cases h
    exact ⟨fun counter => by simp [shareOf], rfl, rfl⟩
  | cons message messages ih =>
    obtain ⟨outcome, between, later, hfirst, hlater, rfl⟩ := processTimed_cons_eq_ok h
    obtain ⟨hcount, hlength, hframing⟩ := ih hlater
    refine ⟨fun counter => ?_, congrArg (· + 1) hlength, ?_⟩
    · rw [hcount, count_processMessage hfirst, shareOf_cons, List.length_cons, Nat.succ_mul]
      omega
    · rw [List.countP_cons_of_neg, hframing]
      rw [isFraming_of_processMessage hfirst]
      exact Bool.false_ne_true

/-- A request is counted as a request, its messages as messages, and its outcomes as what they
are. There is one outcome for each message, or one for a request that cannot be split. -/
theorem count_processOver {clock : Nat → Instant}
    (h : processOver request clock state = .ok (outcomes, state')) :
    (∀ counter, state'.tally.count counter
        = state.tally.count counter + requestShare counter
          + (partsOf request.payload).length * messageShare counter + shareOf outcomes counter)
      ∧ outcomes.length
        = (partsOf request.payload).length + outcomes.countP Outcome.isFraming := by
  rw [processOver] at h
  rw [partsOf]
  cases hsplit : Wire.split request.payload with
  | error error =>
    rw [hsplit] at h
    cases h
    refine ⟨fun counter => ?_, rfl⟩
    cases counter <;> rfl
  | ok parts =>
    rw [hsplit] at h
    obtain ⟨hcount, hlength, hframing⟩ := count_processTimed h
    rw [timed, List.length_map, List.length_zipIdx] at hcount hlength
    refine ⟨fun counter => ?_, by rw [hlength, hframing]; rfl⟩
    rw [hcount, count_bump_requests]

/-! ## Runs of requests -/

/-- A request that has come, with the times at which its messages are processed. -/
structure Incoming where
  /-- The request. -/
  request : Request
  /-- The times of its messages. -/
  clock : Nat → Instant

/-- The outcomes of requests, one after the other, until one of them breaks the collector down, and
the state in which the collector is then. -/
def answerAll : List Incoming → State σ → List (Incoming × List Outcome) × State σ
  | [], state => ([], state)
  | incoming :: rest, state =>
    match processOver incoming.request incoming.clock state with
    | .error _ => ([], state)
    | .ok (outcomes, state) =>
      let (answered, state) := answerAll rest state
      ((incoming, outcomes) :: answered, state)

theorem answerAll_cons_of_error {incoming : Incoming} {breakdown : Breakdown}
    (h : processOver incoming.request incoming.clock state = .error breakdown)
    (rest : List Incoming) : answerAll (incoming :: rest) state = ([], state) := by
  rw [answerAll, h]

theorem answerAll_cons_of_ok {incoming : Incoming}
    (h : processOver incoming.request incoming.clock state = .ok (outcomes, state'))
    (rest : List Incoming) :
    answerAll (incoming :: rest) state
      = ((incoming, outcomes) :: (answerAll rest state').1, (answerAll rest state').2) := by
  rw [answerAll, h]

/-- Requests are answered in their order, all of them or up to one that breaks the collector
down. -/
theorem exists_append_answerAll (requests : List Incoming) (state : State σ) :
    ∃ rest, requests = (answerAll requests state).1.map Prod.fst ++ rest
      ∧ ∀ next ∈ rest.head?, processOver next.request next.clock (answerAll requests state).2
        = .error .outOfCalendar := by
  induction requests generalizing state with
  | nil => exact ⟨[], rfl, by simp⟩
  | cons incoming requests ih =>
    cases hfirst : processOver incoming.request incoming.clock state with
    | error breakdown =>
      rw [answerAll_cons_of_error hfirst]
      cases breakdown
      refine ⟨incoming :: requests, rfl, ?_⟩
      rintro _ ⟨⟩
      exact hfirst
    | ok result =>
      obtain ⟨rest, happend, hnext⟩ := ih result.2
      rw [answerAll_cons_of_ok hfirst]
      exact ⟨rest, congrArg (incoming :: ·) happend, hnext⟩

/-- The number of messages of requests that were answered. -/
def messageCount (answered : List (Incoming × List Outcome)) : Nat :=
  (answered.map fun (incoming, _) => (partsOf incoming.request.payload).length).sum

/-- A run of requests adds them, their messages and all outcomes to the counts. -/
theorem count_answerAll (requests : List Incoming) (state : State σ) :
    let answered := (answerAll requests state).1
    let outcomes := answered.flatMap Prod.snd
    (∀ counter, (answerAll requests state).2.tally.count counter
        = state.tally.count counter + answered.length * requestShare counter
          + messageCount answered * messageShare counter + shareOf outcomes counter)
      ∧ outcomes.length = messageCount answered + outcomes.countP Outcome.isFraming := by
  induction requests generalizing state with
  | nil => exact ⟨fun counter => by simp [answerAll, messageCount, shareOf], rfl⟩
  | cons incoming requests ih =>
    cases hfirst : processOver incoming.request incoming.clock state with
    | error breakdown =>
      rw [answerAll_cons_of_error hfirst]
      exact ⟨fun counter => by simp [messageCount, shareOf], rfl⟩
    | ok result =>
      obtain ⟨outcomes, between⟩ := result
      obtain ⟨hcount, hlength⟩ := count_processOver hfirst
      obtain ⟨hcounts, hlengths⟩ := ih between
      rw [answerAll_cons_of_ok hfirst]
      refine ⟨fun counter => ?_, ?_⟩
      · rw [hcounts, hcount]
        simp only [List.length_cons, Nat.succ_mul, messageCount, List.map_cons, List.sum_cons,
          Nat.add_mul, List.flatMap_cons, shareOf, List.countP_append]
        omega
      · simp only [List.flatMap_cons, List.length_append, List.countP_append, hlength, hlengths,
          messageCount, List.map_cons, List.sum_cons]
        omega

/-- After a run of requests from counts of zero, every request that was answered is counted once,
and so is every message of theirs. There is one outcome for each message, and one for each request
that cannot be split, and the endings account for all of them. Every kind of outcome is counted as
often as it was given, and degraded readings are counted as often as a record is approximated. All
requests are answered unless one of them breaks the collector down. -/
theorem counts_answerAll (normalizer : Normalizer) (files : σ) (requests : List Incoming) :
    let (answered, state) := answerAll requests ⟨normalizer, .zero, files⟩
    let outcomes := answered.flatMap Prod.snd
    let count := state.tally.count
    let framing := outcomes.countP Outcome.isFraming
    (∃ rest, requests = answered.map Prod.fst ++ rest
        ∧ ∀ next ∈ rest.head?, processOver next.request next.clock state = .error .outOfCalendar)
      ∧ count .requests = answered.length
      ∧ count .messages = messageCount answered
      ∧ outcomes.length = count .messages + framing
      ∧ count .messages + framing = count .accepted + count .duplicates + count .malformed
        + count .unstampable + count .commands
      ∧ ∀ counter ∈ [Counter.accepted, .duplicates, .malformed, .unstampable, .commands, .degraded],
        count counter = outcomes.countP (·.countsAs counter) := by
  have hanswered := exists_append_answerAll requests (⟨normalizer, .zero, files⟩ : State σ)
  obtain ⟨hcount, hlength⟩ := count_answerAll requests (⟨normalizer, .zero, files⟩ : State σ)
  generalize answerAll requests ⟨normalizer, .zero, files⟩ = run at hanswered hcount hlength ⊢
  obtain ⟨answered, state⟩ := run
  dsimp only at hanswered hcount hlength ⊢
  simp only [Tally.count_zero, Nat.zero_add] at hcount
  have hnone {counter : Counter} (h : counter = .requests ∨ counter = .messages) :
      shareOf (answered.flatMap Prod.snd) counter = 0 := by
    rw [shareOf, List.countP_eq_zero]
    intro outcome _
    have hshare := outcome.share_eq_zero h
    simpa [Outcome.share] using hshare
  have hrequests : state.tally.count .requests = answered.length := by
    rw [hcount, hnone (.inl rfl)]
    simp [requestShare, messageShare]
  have hmessages : state.tally.count .messages = messageCount answered := by
    rw [hcount, hnone (.inr rfl)]
    simp [requestShare, messageShare]
  have hkinds : ∀ counter, counter ≠ .requests → counter ≠ .messages →
      state.tally.count counter = shareOf (answered.flatMap Prod.snd) counter := by
    intro counter hrequest hmessage
    rw [hcount, requestShare, messageShare, if_neg hrequest, if_neg hmessage]
    omega
  refine ⟨hanswered, hrequests, hmessages, by rw [hmessages, hlength], ?_, ?_⟩
  · have hendings := sum_shareOf (answered.flatMap Prod.snd)
    simp only [Counter.endings, List.map_cons, List.map_nil, List.sum_cons, List.sum_nil]
      at hendings
    rw [hmessages, ← hlength, ← hendings, hkinds .accepted nofun nofun,
      hkinds .duplicates nofun nofun, hkinds .malformed nofun nofun,
      hkinds .unstampable nofun nofun, hkinds .commands nofun nofun]
    omega
  · intro counter hcounter
    apply hkinds <;> rintro rfl <;> simp at hcounter

-- A bulk payload of a reading, its copy and an octet that is no message, and then a payload that
-- cannot be split: four outcomes, and three messages are counted.
example :
    let reading : Octets := [0x10, 0x64, 0xc0, 0x02, 0x23]
    let requests : List Incoming := [[0, 3, 5, 5, 1] ++ reading ++ reading ++ [0xff], [0, 5]].map
      fun payload => ⟨⟨payload, "device-udp:192.0.2.10", .epoch, {}, 0⟩, fun _ => .epoch⟩
    let run := answerAll requests ⟨.new Intake.dedupWindow, .zero, Store.Folder.empty⟩
    run.1.map (·.2.length) = [3, 1]
      ∧ Counter.all.map run.2.tally.count = [2, 3, 1, 1, 2, 0, 0, 0, 0, 0] := by
  decide +kernel

end Normalizer

end FieldTelemetry.Pipeline
