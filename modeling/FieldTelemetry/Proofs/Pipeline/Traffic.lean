import FieldTelemetry.Proofs.Pipeline.Normalizer

/-!
# Runs of a normalizer

A normalizer processes messages one after the other, each at its own time, while requests are
counted and other collectors change the stamp files. It remembers the messages that were no copies,
the last ones of them, and these alone decide which of the next messages are copies.

## Main definitions

* `FirstOutcome`: what becomes of a message that is no copy
* `Processed`, `Run`: processed messages, and the states that they lead to
* `sightings`: the messages of a run that were no copies
* `processTimed`, `processOver`: a request whose messages have their own times

## Main results

* `processMessage_eq_ok`: malformed messages, copies, and others
* `Run.dedup_eq`: what is remembered after a run
* `Run.suppresses_iff`: which messages are copies after a run
* `Run.processOver`: requests are runs
-/

namespace FieldTelemetry.Pipeline.Normalizer

open Intake (Request Sighting)
open Stamp (StampError StampStore)
open Time (Instant Span)
open Wire (Message)

variable {σ : Type} [StampStore σ] {request : Request} {octets : Octets} {now : Instant}
  {start state state' : State σ} {outcome : Outcome} {m : Message}

/-! ## One message -/

/-- What becomes of a message that is no copy. -/
inductive FirstOutcome (m : Message) : Outcome → Prop
  /-- It is a reading of a device. -/
  | accepted {device : String} (hsensor : m.isSensor = true) (hdevice : m.entityId? = some device)
    (record : SensorRecord) : FirstOutcome m (.accepted record)
  /-- It has no measurements, and is a command. -/
  | command (hsensor : m.isSensor = false) (command : Delivery.Command) :
    FirstOutcome m (.command command)
  /-- It has measurements and no sender. -/
  | unidentified (hsensor : m.isSensor = true) (hdevice : m.entityId? = none) :
    FirstOutcome m (.rejected .unidentified "no device id")
  /-- It refers to a stamp, and none of the device can be used. -/
  | unstampable {device : String} {stamp : UInt32} (hsensor : m.isSensor = true)
    (hdevice : m.entityId? = some device) (huse : m.stampUse = .apply stamp) :
    FirstOutcome m (.rejected .unstampable (StampError.unstampable device stamp).message)

theorem FirstOutcome.not_duplicate (h : FirstOutcome m outcome) (checksum : UInt32) :
    outcome ≠ .duplicate checksum := by
  rintro rfl
  cases h

/-- A message that is no copy has the outcome of one, which does not depend on what is
remembered. -/
theorem processFresh_eq_ok {checksum : UInt32}
    (h : processFresh request checksum m now state = .ok (outcome, state')) :
    state'.normalizer.dedup = state.normalizer.dedup ∧ FirstOutcome m outcome := by
  by_cases hsensor : m.isSensor = true
  · cases hdevice : m.entityId? with
    | none =>
      rw [processFresh_of_nobody hsensor hdevice] at h
      cases h
      exact ⟨rfl, .unidentified hsensor hdevice⟩
    | some device =>
      rw [processFresh_of_device hsensor hdevice] at h
      obtain ⟨⟨tally, rfl⟩, ⟨error, hrefused, rfl⟩ | ⟨_, _, _, -, -, rfl⟩⟩ := processReading_eq_ok h
      · obtain ⟨stamp, huse, hstamp⟩ | ⟨_, _, hstamp, -⟩ :=
          Stamp.process_fst_cases state.normalizer.stamps state.files device m.withoutRelays now
        · rw [hrefused] at hstamp
          cases hstamp
          exact ⟨rfl, .unstampable hsensor hdevice huse⟩
        · rw [hrefused] at hstamp
          cases hstamp
      · exact ⟨rfl, .accepted hsensor hdevice _⟩
  · rw [processFresh_of_command hsensor] at h
    cases h
    exact ⟨rfl, .command (Bool.eq_false_of_not_eq_true hsensor) _⟩

/-- A processed message is malformed, a copy, or neither. Only one that is neither changes more than
the counts. -/
theorem processMessage_eq_ok
    (h : processMessage request octets now state = .ok (outcome, state')) :
    (∃ error, Message.decode octets = .error error
        ∧ outcome = .rejected .malformed error.message
        ∧ state'.normalizer = state.normalizer ∧ state'.files = state.files)
      ∨ (∃ m, Message.decode octets = .ok m
        ∧ state.normalizer.dedup.Suppresses m.checksum now ∧ outcome = .duplicate m.checksum
        ∧ state'.normalizer = state.normalizer ∧ state'.files = state.files)
      ∨ ∃ m, Message.decode octets = .ok m
        ∧ ¬ state.normalizer.dedup.Suppresses m.checksum now ∧ FirstOutcome m outcome
        ∧ state'.normalizer.dedup = { state.normalizer.dedup with
            ring := state.normalizer.dedup.ring.push ⟨m.checksum, now⟩ } := by
  cases hdecode : Message.decode octets with
  | error error =>
    rw [processMessage_of_error hdecode] at h
    cases h
    exact .inl ⟨error, rfl, rfl, rfl, rfl⟩
  | ok m =>
    by_cases hcopy : state.normalizer.dedup.Suppresses m.checksum now
    · rw [processMessage_of_copy hdecode hcopy] at h
      cases h
      exact .inr (.inl ⟨m, rfl, hcopy, rfl, rfl, rfl⟩)
    · rw [processMessage_of_fresh hdecode hcopy] at h
      obtain ⟨hdedup, hfirst⟩ := processFresh_eq_ok h
      exact .inr (.inr ⟨m, rfl, hcopy, hfirst, hdedup⟩)

/-! ## Runs -/

/-- A message that was processed. -/
structure Processed where
  /-- The request that it came with. -/
  request : Request
  /-- Its octets. -/
  octets : Octets
  /-- When it was processed. -/
  now : Instant
  /-- What became of it. -/
  outcome : Outcome

/-- The sighting of a message that was no copy. -/
def Processed.sighting? (message : Processed) : Option Sighting :=
  match Message.decode message.octets, message.outcome with
  | .error _, _ => none
  | .ok _, .duplicate _ => none
  | .ok m, _ => some ⟨m.checksum, message.now⟩

/-- The sightings of the messages that were no copies. -/
def sightings (log : List Processed) : List Sighting := log.filterMap Processed.sighting?

/-- A normalizer has processed messages since it was in a state, and is now in another one. -/
inductive Run (start : State σ) : List Processed → State σ → Prop
  /-- Nothing was processed yet. -/
  | start : Run start [] start
  /-- Something was counted, or other collectors changed the stamp files. -/
  | meanwhile {log : List Processed} {state : State σ} (h : Run start log state) (tally : Tally)
    (files : σ) : Run start log { state with tally, files }
  /-- One more message was processed. -/
  | message {log : List Processed} {state state' : State σ} {request : Request} {octets : Octets}
    {now : Instant} {outcome : Outcome} (h : Run start log state)
    (hprocess : processMessage request octets now state = .ok (outcome, state')) :
    Run start (log ++ [⟨request, octets, now, outcome⟩]) state'

theorem sightings_concat (log : List Processed) (message : Processed) :
    (sightings (log ++ [message])).reverse
      = message.sighting?.toList ++ (sightings log).reverse := by
  rw [sightings, List.filterMap_append, List.reverse_append]
  cases hsighting : message.sighting? <;> simp [hsighting, sightings]

theorem Processed.sighting?_eq_some_iff {message : Processed} {sighting : Sighting} :
    message.sighting? = some sighting ↔ ∃ m, Message.decode message.octets = .ok m
      ∧ (∀ checksum, message.outcome ≠ .duplicate checksum)
      ∧ sighting = ⟨m.checksum, message.now⟩ := by
  rw [sighting?]
  cases Message.decode message.octets with
  | error error => simp
  | ok m => cases message.outcome <;> simp [eq_comm]

/-- A processed message changes what is remembered by its own sighting, if it has one. -/
theorem dedup_of_processMessage {values : List Sighting}
    (h : processMessage request octets now state = .ok (outcome, state'))
    (hentries : state.normalizer.dedup.ring.entries = values.take Intake.dedupCapacity) :
    state'.normalizer.dedup.window = state.normalizer.dedup.window
      ∧ state'.normalizer.dedup.ring.entries
        = ((Processed.sighting? ⟨request, octets, now, outcome⟩).toList ++ values).take
            Intake.dedupCapacity := by
  obtain ⟨error, hdecode, rfl, hkept, -⟩ | ⟨m, hdecode, -, rfl, hkept, -⟩
    | ⟨m, hdecode, -, hfirst, hdedup⟩ := processMessage_eq_ok h
  · rw [hkept, Processed.sighting?, hdecode]
    exact ⟨rfl, hentries⟩
  · rw [hkept, Processed.sighting?, hdecode]
    exact ⟨rfl, hentries⟩
  · have hsighting : Processed.sighting? ⟨request, octets, now, outcome⟩
        = some ⟨m.checksum, now⟩ :=
      Processed.sighting?_eq_some_iff.mpr ⟨m, hdecode, hfirst.not_duplicate, rfl⟩
    rw [hdedup, hsighting]
    exact ⟨rfl, Ring.entries_push_eq_take _ _ hentries⟩

namespace Run

variable {log : List Processed}

/-- A run comes to each of its messages, processes it, and goes on. -/
theorem split {before after : List Processed} {message : Processed}
    (h : Run start (before ++ message :: after) state) :
    ∃ between next, Run start before between
      ∧ processMessage message.request message.octets message.now between
        = .ok (message.outcome, next)
      ∧ Run next after state := by
  generalize hlog : before ++ message :: after = log at h
  induction h generalizing after with
  | start => simp at hlog
  | meanwhile h tally files ih =>
    obtain ⟨between, next, hbefore, hprocess, hafter⟩ := ih hlog
    exact ⟨between, next, hbefore, hprocess, hafter.meanwhile tally files⟩
  | message h hprocess ih =>
    -- The message is the last one of the run or comes before it.
    rcases List.eq_nil_or_concat after with rfl | ⟨after, last, rfl⟩
    · obtain ⟨rfl, hlast⟩ := List.append_inj' hlog rfl
      obtain rfl := List.singleton_inj.mp hlast
      exact ⟨_, _, h, hprocess, .start⟩
    · rw [List.concat_eq_append, ← List.cons_append, ← List.append_assoc] at hlog
      obtain ⟨hbefore, hlast⟩ := List.append_inj' hlog rfl
      obtain rfl := List.singleton_inj.mp hlast
      obtain ⟨between, next, hbefore, hfirst, hafter⟩ := ih hbefore
      rw [List.concat_eq_append]
      exact ⟨between, next, hbefore, hfirst, hafter.message hprocess⟩

/-- After a run the latest messages that were no copies are remembered, and before them what was
remembered at the start. -/
theorem dedup_eq (h : Run start log state) :
    state.normalizer.dedup.window = start.normalizer.dedup.window
      ∧ state.normalizer.dedup.ring.entries
        = ((sightings log).reverse ++ start.normalizer.dedup.ring.entries).take
            Intake.dedupCapacity := by
  induction h with
  | start => exact ⟨rfl, (List.take_of_length_le start.normalizer.dedup.ring.length_le).symm⟩
  | meanwhile h tally files ih => exact ih
  | message h hprocess ih =>
    obtain ⟨hwindow, hentries⟩ := dedup_of_processMessage hprocess ih.2
    rw [sightings_concat, List.append_assoc]
    exact ⟨hwindow.trans ih.1, hentries⟩

/-- A message that was no copy suppresses its copies within the window, until as many others as can
be remembered were no copies. -/
theorem suppresses {before after : List Processed} {first : Processed} {sighting : Sighting}
    (h : Run start (before ++ first :: after) state) (hsighting : first.sighting? = some sighting)
    (hcount : (sightings after).length < Intake.dedupCapacity) {checksum : UInt32}
    (hsuppresses : sighting.Suppresses start.normalizer.dedup.window checksum now) :
    state.normalizer.dedup.Suppresses checksum now := by
  obtain ⟨hwindow, hentries⟩ := h.dedup_eq
  refine ⟨sighting, ?_, ?_⟩
  · rw [hentries, List.take_append]
    exact List.mem_append_left _
      (mem_take_reverse_filterMap.mpr ⟨before, first, after, rfl, hsighting, hcount⟩)
  · rwa [hwindow]

/-- When nothing is remembered at the start, a message suppresses copies after a run exactly when it
was no copy, within the window, and until as many others as can be remembered were no copies. -/
theorem suppresses_iff (h : Run start log state) (hstart : start.normalizer.dedup.ring.entries = [])
    {checksum : UInt32} : state.normalizer.dedup.Suppresses checksum now
      ↔ ∃ before first after sighting, log = before ++ first :: after
        ∧ first.sighting? = some sighting
        ∧ sighting.Suppresses start.normalizer.dedup.window checksum now
        ∧ (sightings after).length < Intake.dedupCapacity := by
  constructor
  · obtain ⟨hwindow, hentries⟩ := h.dedup_eq
    rintro ⟨sighting, hmem, hsuppresses⟩
    rw [hentries, hstart, List.append_nil] at hmem
    rw [hwindow] at hsuppresses
    obtain ⟨before, first, after, hlog, hsighting, hcount⟩ := mem_take_reverse_filterMap.mp hmem
    exact ⟨before, first, after, sighting, hlog, hsighting, hsuppresses, hcount⟩
  · rintro ⟨before, first, after, sighting, rfl, hsighting, hsuppresses, hcount⟩
    exact h.suppresses hsighting hcount hsuppresses

end Run

/-! ## Requests -/

/-- The outcomes of several messages of a request, each processed at its own time. -/
def processTimed (request : Request) :
    List (Octets × Instant) → State σ → Except Breakdown (List Outcome × State σ)
  | [], state => .ok ([], state)
  | (octets, now) :: rest, state => do
    let (outcome, state) ← processMessage request octets now state
    let (outcomes, state) ← processTimed request rest state
    return (outcome :: outcomes, state)

/-- The messages of a request with their times, which a clock shows. -/
def timed (parts : List Octets) (clock : Nat → Instant) : List (Octets × Instant) :=
  parts.zipIdx.map fun (octets, index) => (octets, clock index)

/-- The outcomes of a request whose messages are processed while a clock goes on. -/
def processOver (request : Request) (clock : Nat → Instant) (state : State σ) :
    Except Breakdown (List Outcome × State σ) :=
  let tally := state.tally.bump .requests
  match Wire.split request.payload with
  | .error error =>
    .ok ([.rejected .framing error.message], { state with tally := tally.bump .malformed })
  | .ok parts => processTimed request (timed parts clock) { state with tally }

theorem processMessages_eq (request : Request) (now : Instant) (parts : List Octets)
    (state : State σ) :
    processMessages request now parts state
      = processTimed request (parts.map fun octets => (octets, now)) state := by
  induction parts generalizing state with
  | nil => rfl
  | cons octets parts ih =>
    rw [processMessages, List.map_cons, processTimed]
    simp only [ih]

/-- The messages of a request have one time when the clock stands still. -/
theorem process_eq (request : Request) (now : Instant) (state : State σ) :
    process request now state = processOver request (fun _ => now) state := by
  have htimed (parts : List Octets) :
      timed parts (fun _ => now) = parts.map fun octets => (octets, now) := by
    conv_rhs => rw [← List.zipIdx_map_fst 0 parts, List.map_map]
    rfl
  rw [process, processOver]
  cases Wire.split request.payload with
  | error error => rfl
  | ok parts =>
    dsimp only
    rw [processMessages_eq, htimed]

theorem processTimed_cons_eq_ok {rest : List (Octets × Instant)} {outcomes : List Outcome}
    (h : processTimed request ((octets, now) :: rest) state = .ok (outcomes, state')) :
    ∃ outcome between later, processMessage request octets now state = .ok (outcome, between)
      ∧ processTimed request rest between = .ok (later, state')
      ∧ outcomes = outcome :: later := by
  rw [processTimed] at h
  cases hfirst : processMessage request octets now state with
  | error error =>
    rw [hfirst] at h
    cases h
  | ok first =>
    obtain ⟨outcome, between⟩ := first
    rw [hfirst] at h
    simp only [bind, Except.bind] at h
    cases hrest : processTimed request rest between with
    | error error =>
      rw [hrest] at h
      cases h
    | ok rest =>
      rw [hrest] at h
      cases h
      exact ⟨outcome, between, _, rfl, hrest, rfl⟩

theorem isReading_of_mem_processTimed {messages : List (Octets × Instant)} {outcomes : List Outcome}
    (h : processTimed request messages state = .ok (outcomes, state')) {record : SensorRecord}
    (hmem : .accepted record ∈ outcomes) : IsReading request record := by
  induction messages generalizing state outcomes with
  | nil =>
    cases h
    cases hmem
  | cons first rest ih =>
    obtain ⟨octets, now⟩ := first
    obtain ⟨outcome, between, later, hfirst, hrest, rfl⟩ := processTimed_cons_eq_ok h
    -- The outcome is that of the first message or of a later one.
    rcases List.mem_cons.mp hmem with rfl | hmem
    · exact isReading_of_accepted hfirst
    · exact ih hrest hmem

/-- What is accepted among the outcomes of a request is a reading. -/
theorem isReading_of_mem_processOver {clock : Nat → Instant} {outcomes : List Outcome}
    (h : processOver request clock state = .ok (outcomes, state')) {record : SensorRecord}
    (hmem : .accepted record ∈ outcomes) : IsReading request record := by
  rw [processOver] at h
  split at h
  · cases h
    simp at hmem
  · exact isReading_of_mem_processTimed h hmem

/-- The messages of a request with what became of them. -/
def answered (request : Request) (messages : List (Octets × Instant)) (outcomes : List Outcome) :
    List Processed :=
  List.zipWith (fun (octets, now) outcome => ⟨request, octets, now, outcome⟩) messages outcomes

namespace Run

variable {log : List Processed} {outcomes : List Outcome}

theorem processTimed {messages : List (Octets × Instant)} (h : Run start log state)
    (hok : processTimed request messages state = .ok (outcomes, state')) :
    outcomes.length = messages.length
      ∧ Run start (log ++ answered request messages outcomes) state' := by
  induction messages generalizing log state outcomes with
  | nil =>
    cases hok
    rw [answered, List.zipWith_nil_left, List.append_nil]
    exact ⟨rfl, h⟩
  | cons first rest ih =>
    obtain ⟨octets, now⟩ := first
    obtain ⟨outcome, between, later, hfirst, hrest, rfl⟩ := processTimed_cons_eq_ok hok
    obtain ⟨hlength, hrun⟩ := ih (h.message hfirst) hrest
    rw [List.append_assoc] at hrun
    exact ⟨congrArg (· + 1) hlength, hrun⟩

/-- A request adds its messages to a run, or none when it is rejected as a whole. -/
theorem processOver {clock : Nat → Instant} (h : Run start log state)
    (hok : processOver request clock state = .ok (outcomes, state')) :
    (∃ error, Wire.split request.payload = .error error
        ∧ outcomes = [.rejected .framing error.message] ∧ Run start log state')
      ∨ ∃ parts, Wire.split request.payload = .ok parts ∧ outcomes.length = parts.length
        ∧ Run start (log ++ answered request (timed parts clock) outcomes) state' := by
  rw [Normalizer.processOver] at hok
  cases hsplit : Wire.split request.payload with
  | error error =>
    rw [hsplit] at hok
    cases hok
    exact .inl ⟨error, rfl, rfl, h.meanwhile _ _⟩
  | ok parts =>
    rw [hsplit] at hok
    obtain ⟨hlength, hrun⟩ := (h.meanwhile _ _).processTimed hok
    rw [timed, List.length_map, List.length_zipIdx] at hlength
    exact .inr ⟨parts, rfl, hlength, hrun⟩

end Run

end FieldTelemetry.Pipeline.Normalizer
