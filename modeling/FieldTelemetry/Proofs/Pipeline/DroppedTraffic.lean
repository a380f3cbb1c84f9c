import FieldTelemetry.Proofs.Pipeline.BulkUpload

/-!
# Traffic that is dropped

Messages that cannot be read, copies, and requests that do not hold what they announce change
nothing but counts. So a run without some of them has the same outcomes and ends with the same
memory and the same stamp files. Messages that are rejected for another reason and commands are
remembered like readings, but leave the stamps alone.

## Main definitions

* `Arrival`, `processAll`: requests and messages that come, and their outcomes
* `Arrival.messages`: the messages of a request one by one
* `Outcome.isDropped`: malformed messages, copies, and requests that cannot be split
* `Thinned`, `withoutDropped`: a run without some or all of the traffic that was dropped

## Main results

* `Arrival.process_agrees`: what comes is answered alike in states that differ in their counts
* `Arrival.unchanged_of_dropped`: what is dropped changes nothing but counts
* `processAll_thinned`: a run without dropped traffic
-/

namespace FieldTelemetry.Stamp

open Time (Instant)
open Wire (Message)

/-- A message whose stamp cannot be used changes neither memory nor any stamp file. -/
theorem process_of_refused {σ : Type} [StampStore σ] [LawfulStampStore σ] {cache : Cache}
    {state : σ} {device : String} {m : Message} {now : Instant} {error : StampError}
    (h : (cache.process device m now state).1 = .error error) :
    (cache.process device m now state).2.1 = cache
      ∧ ∀ other, stored? (cache.process device m now state).2.2 other = stored? state other := by
  cases huse : m.stampUse with
  | none =>
    rw [process_of_none _ _ _ _ _ huse] at h
    cases h
  | set version stamp =>
    rw [process_of_set _ _ _ _ _ huse] at h
    cases h
  | apply stamp =>
    rw [process_of_apply _ _ _ _ _ huse] at h ⊢
    by_cases hhits : cache.hits device stamp = true
    · rw [apply_of_hits m now hhits]
      exact ⟨rfl, fun _ => rfl⟩
    · rw [apply_of_not_hits m now hhits] at h ⊢
      rw [valid?_reload, if_pos rfl] at h
      rw [reload_eq]
      cases hfiled : filed? state device with
      | none => exact ⟨rfl, fun other => LawfulStampStore.stored?_read state device other⟩
      | some file =>
        -- A stamp that has just been read could have been used.
        rw [hfiled, Option.some_or] at h
        have hversion := version_of_filed? hfiled
        by_cases hstamp : file.stamp = stamp
        · rw [answer_same hversion device m now hstamp] at h
          cases h
        · rw [answer_other hversion device m now hstamp] at h
          cases h

end FieldTelemetry.Stamp

namespace FieldTelemetry.Pipeline

open Intake (Request)
open Stamp (LawfulStampStore StampStore)
open Time (Instant)
open Wire (Message)

/-- The traffic is dropped without a trace: a message that cannot be read, a copy, or a request that
does not hold what it announces. -/
def Outcome.isDropped : Outcome → Bool
  | .duplicate _ | .rejected .malformed _ | .rejected .framing _ => true
  | _ => false

/-- The outcome leaves the stamps alone: that of a command, or of a message that is rejected because
of its sender or its stamp. -/
def Outcome.leavesStamps : Outcome → Bool
  | .command _ | .rejected .unidentified _ | .rejected .unstampable _ => true
  | _ => false

/-- Any two counts. -/
def Tally.Any (_ _ : Tally) : Prop := True

theorem Tally.lockstep_any : Tally.Lockstep Tally.Any := fun _ _ _ => id

namespace Normalizer

namespace State.Agrees

variable {σ : Type} {s t u : State σ}

protected theorem refl (s : State σ) : s.Agrees Tally.Any s := ⟨rfl, rfl, trivial⟩

protected theorem symm (h : s.Agrees Tally.Any t) : t.Agrees Tally.Any s :=
  ⟨h.normalizer.symm, h.files.symm, trivial⟩

protected theorem trans (h : s.Agrees Tally.Any t) (h' : t.Agrees Tally.Any u) :
    s.Agrees Tally.Any u :=
  ⟨h.normalizer.trans h'.normalizer, h.files.trans h'.files, trivial⟩

end State.Agrees

/-! ## Runs of traffic -/

/-- What comes to a normalizer. -/
inductive Arrival
  /-- A request, with the times of its messages. -/
  | whole (request : Request) (clock : Nat → Instant)
  /-- One message of a request, with its time. -/
  | message (request : Request) (octets : Octets) (now : Instant)

/-- What comes, with the messages of a request one by one when it holds those that it announces. -/
def Arrival.messages : Arrival → List Arrival
  | .whole request clock =>
    match Wire.split request.payload with
    | .error _ => [.whole request clock]
    | .ok parts => (timed parts clock).map fun (octets, now) => .message request octets now
  | .message request octets now => [.message request octets now]

section Runs

variable {σ : Type} [StampStore σ]

/-- The outcomes of what comes. -/
def Arrival.process : Arrival → State σ → Except Breakdown (List Outcome × State σ)
  | .whole request clock, state => processOver request clock state
  | .message request octets now, state =>
    (processMessage request octets now state) >>= fun (outcome, state) => .ok ([outcome], state)

/-- What comes one after the other, each with its outcomes. -/
def processAll : List Arrival → State σ →
    Except Breakdown (List (Arrival × List Outcome) × State σ)
  | [], state => .ok ([], state)
  | arrival :: arrivals, state => do
    let (outcomes, state) ← arrival.process state
    let (later, state) ← processAll arrivals state
    return ((arrival, outcomes) :: later, state)

/-- All outcomes of a run. -/
def outcomesOf (log : List (Arrival × List Outcome)) : List Outcome := log.flatMap Prod.snd

/-- A run without some of the traffic that was dropped. -/
inductive Thinned : List (Arrival × List Outcome) → List (Arrival × List Outcome) → Prop
  /-- Nothing has arrived. -/
  | nil : Thinned [] []
  /-- An arrival is kept. -/
  | keep {log kept : List (Arrival × List Outcome)} (answered : Arrival × List Outcome)
    (h : Thinned log kept) : Thinned (answered :: log) (answered :: kept)
  /-- An arrival is left out of which every part was dropped. -/
  | drop {log kept : List (Arrival × List Outcome)} {answered : Arrival × List Outcome}
    (hdropped : ∀ outcome ∈ answered.2, outcome.isDropped = true) (h : Thinned log kept) :
    Thinned (answered :: log) kept

/-- A run without all the traffic that was dropped. -/
def withoutDropped (log : List (Arrival × List Outcome)) : List (Arrival × List Outcome) :=
  log.filter fun answered => !answered.2.all Outcome.isDropped

theorem thinned_withoutDropped (log : List (Arrival × List Outcome)) :
    Thinned log (withoutDropped log) := by
  induction log with
  | nil => exact .nil
  | cons answered log ih =>
    rw [withoutDropped, List.filter_cons]
    cases hall : answered.2.all Outcome.isDropped with
    | true => exact .drop (List.all_eq_true.mp hall) ih
    | false => exact .keep _ ih

variable {R : Tally → Tally → Prop} {s t final : State σ} {arrivals : List Arrival}
  {log kept : List (Arrival × List Outcome)}

theorem processAll_cons_eq_ok {arrival : Arrival}
    (h : processAll (arrival :: arrivals) s = .ok (log, t)) :
    ∃ outcomes between later, arrival.process s = .ok (outcomes, between)
      ∧ processAll arrivals between = .ok (later, t) ∧ log = (arrival, outcomes) :: later := by
  rw [processAll] at h
  cases hfirst : arrival.process s with
  | error breakdown =>
    rw [hfirst] at h
    cases h
  | ok first =>
    rw [hfirst] at h
    simp only [bind, Except.bind] at h
    cases hrest : processAll arrivals first.2 with
    | error breakdown =>
      rw [hrest] at h
      cases h
    | ok rest =>
      rw [hrest] at h
      cases h
      exact ⟨_, _, _, rfl, hrest, rfl⟩

theorem processAll_cons_of_ok {arrival : Arrival} {outcomes : List Outcome} {between : State σ}
    (hfirst : arrival.process s = .ok (outcomes, between))
    (hrest : processAll arrivals between = .ok (log, t)) :
    processAll (arrival :: arrivals) s = .ok ((arrival, outcomes) :: log, t) := by
  rw [processAll, hfirst]
  simp only [bind, Except.bind, hrest]
  rfl

/-! ### Counts do not matter -/

theorem processTimed_agrees (hR : Tally.Lockstep R) (request : Request)
    (messages : List (Octets × Instant)) (h : s.Agrees R t) :
    SameAnswer R (processTimed request messages s) (processTimed request messages t) := by
  induction messages generalizing s t with
  | nil => exact .ok h
  | cons message messages ih =>
    rw [processTimed, processTimed]
    refine (processMessage_agrees hR h request message.1 message.2).bind ?_
    intro outcome s' t' hagrees
    refine (ih hagrees).bind ?_
    intro outcomes s'' t'' hagrees
    exact .ok hagrees

/-- What comes is answered alike in states that differ in their counts. -/
theorem Arrival.process_agrees (hR : Tally.Lockstep R) (arrival : Arrival) (h : s.Agrees R t) :
    SameAnswer R (arrival.process s) (arrival.process t) := by
  cases arrival with
  | whole request clock =>
    have hcounted := hR _ _ .requests h.tally
    simp only [Arrival.process, processOver]
    cases Wire.split request.payload with
    | error error => exact .ok ⟨h.normalizer, h.files, hR _ _ _ hcounted⟩
    | ok parts => exact processTimed_agrees hR request _ ⟨h.normalizer, h.files, hcounted⟩
  | message request octets now =>
    refine (processMessage_agrees hR h request octets now).bind ?_
    intro outcome s' t' hagrees
    exact .ok hagrees

/-! ### Requests and their messages -/

theorem processAll_append_of_ok {arrivals' : List Arrival} {log' : List (Arrival × List Outcome)}
    {between : State σ} (hfirst : processAll arrivals s = .ok (log, between))
    (hrest : processAll arrivals' between = .ok (log', t)) :
    processAll (arrivals ++ arrivals') s = .ok (log ++ log', t) := by
  induction arrivals generalizing s log with
  | nil =>
    cases hfirst
    exact hrest
  | cons arrival arrivals ih =>
    obtain ⟨outcomes, next, later, hprocess, hlater, rfl⟩ := processAll_cons_eq_ok hfirst
    exact processAll_cons_of_ok hprocess (ih hlater)

/-- The messages of a request one by one have the same outcomes, in any state that differs in its
counts. -/
theorem processAll_of_processTimed {request : Request} {messages : List (Octets × Instant)}
    {outcomes : List Outcome} {s' : State σ}
    (h : processTimed request messages s = .ok (outcomes, s'))
    (hagrees : s.Agrees Tally.Any t) :
    ∃ log t', processAll (messages.map fun (octets, now) => .message request octets now) t
        = .ok (log, t') ∧ outcomesOf log = outcomes ∧ s'.Agrees Tally.Any t' := by
  induction messages generalizing s t outcomes with
  | nil =>
    cases h
    exact ⟨[], t, rfl, rfl, hagrees⟩
  | cons message messages ih =>
    obtain ⟨octets, now⟩ := message
    obtain ⟨outcome, between, later, hprocess, hlater, rfl⟩ := processTimed_cons_eq_ok h
    obtain ⟨next, hnext, hagrees⟩ :=
      (processMessage_agrees Tally.lockstep_any hagrees.symm request octets now).exists_ok hprocess
    obtain ⟨log, t', hall, rfl, hagrees⟩ := ih hlater hagrees.symm
    have hfirst : Arrival.process (.message request octets now) t = .ok ([outcome], next) := by
      rw [Arrival.process, hnext]
      rfl
    exact ⟨_, t', processAll_cons_of_ok hfirst hall, rfl, hagrees⟩

/-- A request and its messages one by one have the same outcomes. -/
theorem Arrival.processAll_messages {arrival : Arrival} {outcomes : List Outcome} {s' : State σ}
    (h : arrival.process s = .ok (outcomes, s')) (hagrees : s.Agrees Tally.Any t) :
    ∃ log t', processAll arrival.messages t = .ok (log, t') ∧ outcomesOf log = outcomes
      ∧ s'.Agrees Tally.Any t' := by
  obtain ⟨t', hprocess, hagrees'⟩ :=
    (arrival.process_agrees Tally.lockstep_any hagrees.symm).exists_ok h
  have hsingle : ∃ log t', processAll [arrival] t = .ok (log, t') ∧ outcomesOf log = outcomes
      ∧ s'.Agrees Tally.Any t' :=
    ⟨_, t', processAll_cons_of_ok hprocess rfl, List.append_nil _, hagrees'.symm⟩
  cases arrival with
  | message request octets now => exact hsingle
  | whole request clock =>
    rw [Arrival.messages]
    cases hsplit : Wire.split request.payload with
    | error error => exact hsingle
    | ok parts =>
      rw [Arrival.process, processOver, hsplit] at h
      exact processAll_of_processTimed h ⟨hagrees.normalizer, hagrees.files, trivial⟩

/-- Requests and all their messages one by one have the same outcomes. -/
theorem processAll_flatMap_messages (h : processAll arrivals s = .ok (log, final))
    (hagrees : s.Agrees Tally.Any t) :
    ∃ log' final', processAll (arrivals.flatMap Arrival.messages) t = .ok (log', final')
      ∧ outcomesOf log' = outcomesOf log ∧ final.Agrees Tally.Any final' := by
  induction arrivals generalizing s t log with
  | nil =>
    cases h
    exact ⟨[], t, rfl, rfl, hagrees⟩
  | cons arrival arrivals ih =>
    obtain ⟨outcomes, between, later, hprocess, hlater, rfl⟩ := processAll_cons_eq_ok h
    obtain ⟨first, next, hfirst, hsame, hagrees⟩ := arrival.processAll_messages hprocess hagrees
    obtain ⟨rest, final', hrest, hsame', hagrees⟩ := ih hlater hagrees
    refine ⟨first ++ rest, final', processAll_append_of_ok hfirst hrest, ?_, hagrees⟩
    rw [outcomesOf, List.flatMap_append]
    exact congrArg₂ (· ++ ·) hsame hsame'

/-! ## What is dropped -/

theorem FirstOutcome.not_isDropped {m : Message} {outcome : Outcome} (h : FirstOutcome m outcome) :
    outcome.isDropped = false := by
  cases h <;> rfl

theorem unchanged_of_isDropped {request : Request} {octets : Octets} {now : Instant}
    {outcome : Outcome} (h : processMessage request octets now s = .ok (outcome, t))
    (hdropped : outcome.isDropped = true) : t.Agrees Tally.Any s := by
  rcases processMessage_eq_ok h with ⟨_, -, -, hnormalizer, hfiles⟩
    | ⟨_, -, -, -, hnormalizer, hfiles⟩ | ⟨_, -, -, hfirst, -⟩
  · exact ⟨hnormalizer, hfiles, trivial⟩
  · exact ⟨hnormalizer, hfiles, trivial⟩
  · rw [hfirst.not_isDropped] at hdropped
    cases hdropped

theorem unchanged_of_processTimed {request : Request} {messages : List (Octets × Instant)}
    {outcomes : List Outcome} (h : processTimed request messages s = .ok (outcomes, t))
    (hdropped : ∀ outcome ∈ outcomes, outcome.isDropped = true) : t.Agrees Tally.Any s := by
  induction messages generalizing s outcomes with
  | nil =>
    cases h
    exact .refl _
  | cons message messages ih =>
    obtain ⟨outcome, between, later, hfirst, hlater, rfl⟩ := processTimed_cons_eq_ok h
    obtain ⟨hone, hothers⟩ := List.forall_mem_cons.mp hdropped
    exact (ih hlater hothers).trans (unchanged_of_isDropped hfirst hone)

/-- What is dropped changes nothing but counts. -/
theorem Arrival.unchanged_of_dropped {arrival : Arrival} {outcomes : List Outcome}
    (h : arrival.process s = .ok (outcomes, t))
    (hdropped : ∀ outcome ∈ outcomes, outcome.isDropped = true) : t.Agrees Tally.Any s := by
  cases arrival with
  | whole request clock =>
    rw [Arrival.process, processOver] at h
    cases hsplit : Wire.split request.payload with
    | error error =>
      rw [hsplit] at h
      cases h
      exact ⟨rfl, rfl, trivial⟩
    | ok parts =>
      rw [hsplit] at h
      exact (unchanged_of_processTimed h hdropped).trans ⟨rfl, rfl, trivial⟩
  | message request octets now =>
    rw [Arrival.process] at h
    cases hprocess : processMessage request octets now s with
    | error breakdown =>
      rw [hprocess] at h
      cases h
    | ok result =>
      rw [hprocess] at h
      cases h
      exact unchanged_of_isDropped hprocess (hdropped _ (List.mem_singleton_self _))

/-- A run without some of the traffic that was dropped has the same outcomes, in any state that
differs in its counts. -/
theorem Thinned.exists_ok (hthinned : Thinned log kept)
    (h : processAll arrivals s = .ok (log, final))
    (hagrees : s.Agrees Tally.Any t) :
    ∃ final', processAll (kept.map Prod.fst) t = .ok (kept, final')
      ∧ final.Agrees Tally.Any final' := by
  induction hthinned generalizing arrivals s t with
  | nil =>
    cases arrivals with
    | nil =>
      cases h
      exact ⟨t, rfl, hagrees⟩
    | cons arrival arrivals =>
      obtain ⟨_, _, _, -, -, hlog⟩ := processAll_cons_eq_ok h
      cases hlog
  | keep answered hthinned ih =>
    cases arrivals with
    | nil => cases h
    | cons arrival arrivals =>
      obtain ⟨outcomes, between, later, hprocess, hlater, hlog⟩ := processAll_cons_eq_ok h
      cases hlog
      obtain ⟨next, hnext, hagrees⟩ :=
        (arrival.process_agrees Tally.lockstep_any hagrees.symm).exists_ok hprocess
      obtain ⟨final', hall, hagrees⟩ := ih hlater hagrees.symm
      exact ⟨final', processAll_cons_of_ok hnext hall, hagrees⟩
  | drop hdropped hthinned ih =>
    cases arrivals with
    | nil => cases h
    | cons arrival arrivals =>
      obtain ⟨outcomes, between, later, hprocess, hlater, hlog⟩ := processAll_cons_eq_ok h
      cases hlog
      exact ih hlater ((Arrival.unchanged_of_dropped hprocess hdropped).trans hagrees)

/-! ## What leaves the stamps alone -/

theorem stamps_of_processReading [LawfulStampStore σ] {request : Request} {checksum : UInt32}
    {m : Message} {device : String} {now : Instant} {outcome : Outcome}
    (h : processReading request checksum m device now s = .ok (outcome, t))
    (hleaves : outcome.leavesStamps = true) :
    t.normalizer.stamps = s.normalizer.stamps
      ∧ ∀ other, Stamp.stored? t.files other = Stamp.stored? s.files other := by
  obtain ⟨⟨tally, rfl⟩, ⟨error, hrefused, -⟩ | ⟨_, _, _, -, -, rfl⟩⟩ := processReading_eq_ok h
  · exact Stamp.process_of_refused hrefused
  · cases hleaves

/-- Commands, and messages that are rejected because of their sender or their stamp, change no stamp
in memory and no stamp file. -/
theorem stamps_of_leavesStamps [LawfulStampStore σ] {request : Request} {octets : Octets}
    {now : Instant} {outcome : Outcome}
    (h : processMessage request octets now s = .ok (outcome, t))
    (hleaves : outcome.leavesStamps = true) :
    t.normalizer.stamps = s.normalizer.stamps
      ∧ ∀ device, Stamp.stored? t.files device = Stamp.stored? s.files device := by
  cases hdecode : Message.decode octets with
  | error error =>
    rw [processMessage_of_error hdecode] at h
    cases h
    exact ⟨rfl, fun _ => rfl⟩
  | ok m =>
    by_cases hcopy : s.normalizer.dedup.Suppresses m.checksum now
    · rw [processMessage_of_copy hdecode hcopy] at h
      cases h
      exact ⟨rfl, fun _ => rfl⟩
    · rw [processMessage_of_fresh hdecode hcopy] at h
      by_cases hsensor : m.isSensor = true
      · cases hdevice : m.entityId? with
        | none =>
          rw [processFresh_of_nobody hsensor hdevice] at h
          cases h
          exact ⟨rfl, fun _ => rfl⟩
        | some device =>
          rw [processFresh_of_device hsensor hdevice] at h
          have hstamps := stamps_of_processReading h hleaves
          exact hstamps
      · rw [processFresh_of_command hsensor] at h
        cases h
        exact ⟨rfl, fun _ => rfl⟩

/-! ## Runs without dropped traffic -/

/-- The messages of a run one by one have the outcomes that they have in their requests. Without
some of the messages that are malformed or copies, and without some of the requests that cannot be
split, the others keep their outcomes, and memory and stamp files end the same. Other messages that
are not accepted leave the stamps alone. -/
theorem processAll_thinned [LawfulStampStore σ] (h : processAll arrivals s = .ok (log, final)) :
    (∃ log' final', processAll (arrivals.flatMap Arrival.messages) s = .ok (log', final')
        ∧ outcomesOf log' = outcomesOf log
        ∧ final'.normalizer = final.normalizer ∧ final'.files = final.files
        ∧ ∀ kept, Thinned log' kept →
          ∃ last, processAll (kept.map Prod.fst) s = .ok (kept, last)
            ∧ last.normalizer = final.normalizer ∧ last.files = final.files)
      ∧ ∀ (request : Request) (octets : Octets) (now : Instant) (before after : State σ) outcome,
        processMessage request octets now before = .ok (outcome, after) →
          outcome.leavesStamps = true →
        after.normalizer.stamps = before.normalizer.stamps
          ∧ ∀ device, Stamp.stored? after.files device = Stamp.stored? before.files device := by
  refine ⟨?_, ?_⟩
  · obtain ⟨log', final', hmessages, hsame, hagrees⟩ := processAll_flatMap_messages h (.refl _)
    refine ⟨log', final', hmessages, hsame, hagrees.normalizer.symm, hagrees.files.symm, ?_⟩
    intro kept hthinned
    obtain ⟨last, hlast, hagrees'⟩ := hthinned.exists_ok hmessages (.refl _)
    have hends := hagrees.trans hagrees'
    exact ⟨last, hlast, hends.normalizer.symm, hends.files.symm⟩
  · intro request octets now before after outcome hprocess hleaves
    exact stamps_of_leavesStamps hprocess hleaves

end Runs

/-! ### A reading among dropped traffic -/

/-- A message that sets a stamp, a request that ends too early, octets that are no message, and a
bulk payload of a message that refers to the stamp and of the first message again. -/
def mixedTraffic : List Arrival :=
  [.whole { plainRequest with payload := (datedMessage none).encode } fun _ => .epoch,
    .whole { plainRequest with payload := [0, 5] } fun _ => .epoch,
    .message plainRequest [0xff] .epoch,
    .whole { plainRequest with
      payload := Wire.bulk [laterMessage.encode, (datedMessage none).encode] } fun _ => .epoch]

/-- Of five messages and requests three are dropped, and the run is the same without them. -/
theorem processAll_thinned_mixed :
    ∃ log log' final final' last, processAll mixedTraffic freshState = .ok (log, final)
      ∧ processAll (mixedTraffic.flatMap Arrival.messages) freshState = .ok (log', final')
      ∧ log'.length = 5 ∧ (withoutDropped log').length = 2
      ∧ processAll ((withoutDropped log').map Prod.fst) freshState = .ok (withoutDropped log', last)
      ∧ last.normalizer = final.normalizer ∧ last.files = final.files := by
  have hanswered : (processAll mixedTraffic freshState).toOption.isSome = true := by decide +kernel
  obtain ⟨⟨log, final⟩, hlog⟩ := Option.isSome_iff_exists.mp hanswered
  obtain ⟨⟨log', final', hmessages, -, -, -, hthinned⟩, -⟩ :=
    processAll_thinned (eq_ok_of_toOption hlog)
  have hcounts : (processAll (mixedTraffic.flatMap Arrival.messages) freshState).toOption.map
      (fun run => (run.1.length, (withoutDropped run.1).length)) = some (5, 2) := by
    decide +kernel
  rw [hmessages] at hcounts
  simp only [Except.toOption, Option.map_some, Option.some.injEq, Prod.mk.injEq] at hcounts
  obtain ⟨last, hlast, hends⟩ := hthinned _ (thinned_withoutDropped log')
  exact ⟨log, log', final, final', last, eq_ok_of_toOption hlog, hmessages, hcounts.1, hcounts.2,
    hlast, hends⟩

end Normalizer

end FieldTelemetry.Pipeline
