import FieldTelemetry.Proofs.Pipeline.StampRoundTrip
import FieldTelemetry.Proofs.Pipeline.Traffic
import FieldTelemetry.Proofs.Wire.CaptureTime

/-!
# Messages that break the collector down

A request is answered with one outcome for each of its messages, or with one for all of them when it
does not hold the messages that it announces. The only exception is a message whose offset leads
beyond the end of the calendar: it is not refused like other messages without a capture time, but
breaks the collector down.

## Main definitions

* `BreaksDown`, `BreaksDownAmong`: a message, and one of several messages, breaks the collector down
* `Answers`: outcomes are those of all messages of a payload

## Main results

* `processMessage_eq_error_iff`: the messages that break the collector down
* `processOver_answers_iff`: requests are answered unless one of their messages breaks it down
* `answers_of_offset_le`: requests without offsets into the future are answered
* `process_lateRequest`: a request that is not answered
-/

namespace FieldTelemetry.Pipeline.Normalizer

open Intake (Request)
open Stamp (StampStore)
open Time (Instant)
open Wire (Message)

section Breakdowns

variable {σ : Type} [StampStore σ] {request : Request} {octets : Octets} {now : Instant}
  {state state' : State σ} {m : Message}

/-! ## One message -/

theorem capturedAt?_eq_error_iff {breakdown : Breakdown} :
    capturedAt? m = .error breakdown ↔ m.LeavesCalendar := by
  rw [← Message.captureTime_eq_outOfCalendar_iff, capturedAt?]
  cases breakdown
  cases m.captureTime with
  | ok time => simp
  | error error => cases error <;> simp

/-- A message of a device that is no copy leads out of the calendar with what its stamp stands
for. -/
def BreaksDown (octets : Octets) (now : Instant) (state : State σ) : Prop :=
  ∃ m device stampOutcome m', Message.decode octets = .ok m
    ∧ ¬ state.normalizer.dedup.Suppresses m.checksum now
    ∧ m.isSensor = true ∧ m.entityId? = some device
    ∧ (state.normalizer.stamps.process device m.withoutRelays now state.files).1
      = .ok (stampOutcome, m')
    ∧ m'.LeavesCalendar

theorem processReading_eq_error_iff {checksum : UInt32} {device : String} {breakdown : Breakdown} :
    processReading request checksum m device now state = .error breakdown
      ↔ ∃ stampOutcome m', (state.normalizer.stamps.process device m now state.files).1
          = .ok (stampOutcome, m') ∧ m'.LeavesCalendar := by
  obtain ⟨error, tally, hrefused, hprocess⟩ | ⟨stampOutcome, m', hstamp,
      ⟨capturedAt, tally, htime, hprocess⟩ | ⟨breakdown', htime, hprocess⟩⟩ :=
    processReading_cases request checksum m device now state
  · simp [hrefused, hprocess]
  · have hstays : ¬ m'.LeavesCalendar := by
      intro hleaves
      have herror : capturedAt? m' = .error .outOfCalendar := capturedAt?_eq_error_iff.mpr hleaves
      rw [htime] at herror
      cases herror
    simp [hstamp, hprocess, hstays]
  · have hleaves : m'.LeavesCalendar := capturedAt?_eq_error_iff.mp htime
    cases breakdown
    cases breakdown'
    simp [hstamp, hprocess, hleaves]

theorem processMessage_eq_error_iff :
    processMessage request octets now state = .error .outOfCalendar
      ↔ BreaksDown octets now state := by
  constructor
  · intro h
    cases hdecode : Message.decode octets with
    | error error =>
      rw [processMessage_of_error hdecode] at h
      cases h
    | ok m =>
      by_cases hcopy : state.normalizer.dedup.Suppresses m.checksum now
      · rw [processMessage_of_copy hdecode hcopy] at h
        cases h
      · rw [processMessage_of_fresh hdecode hcopy] at h
        -- Commands and messages without a sender have no capture time to look for.
        by_cases hsensor : m.isSensor = true
        · cases hdevice : m.entityId? with
          | none =>
            rw [processFresh_of_nobody hsensor hdevice] at h
            cases h
          | some device =>
            rw [processFresh_of_device hsensor hdevice] at h
            obtain ⟨stampOutcome, m', hstamp, hleaves⟩ := processReading_eq_error_iff.mp h
            exact ⟨m, device, stampOutcome, m', hdecode, hcopy, hsensor, hdevice, hstamp, hleaves⟩
        · rw [processFresh_of_command hsensor] at h
          cases h
  · rintro ⟨m, device, stampOutcome, m', hdecode, hcopy, hsensor, hdevice, hstamp, hleaves⟩
    rw [processMessage_of_fresh hdecode hcopy, processFresh_of_device hsensor hdevice]
    exact processReading_eq_error_iff.mpr ⟨stampOutcome, m', hstamp, hleaves⟩

/-! ## Requests -/

/-- One of several messages breaks the collector down in the state that the ones before it lead
to. -/
inductive BreaksDownAmong (request : Request) : List (Octets × Instant) → State σ → Prop
  /-- It is the first one. -/
  | first {octets : Octets} {now : Instant} {rest : List (Octets × Instant)} {state : State σ}
    (h : BreaksDown octets now state) : BreaksDownAmong request ((octets, now) :: rest) state
  /-- It is a later one. -/
  | later {octets : Octets} {now : Instant} {rest : List (Octets × Instant)}
    {state between : State σ} {outcome : Outcome}
    (hfirst : processMessage request octets now state = .ok (outcome, between))
    (h : BreaksDownAmong request rest between) :
    BreaksDownAmong request ((octets, now) :: rest) state

/-- Several messages have one outcome each, unless one of them breaks the collector down. -/
theorem processTimed_spec (request : Request) (messages : List (Octets × Instant))
    (state : State σ) :
    (BreaksDownAmong request messages state
        ∧ processTimed request messages state = .error .outOfCalendar)
      ∨ (¬ BreaksDownAmong request messages state
        ∧ ∃ outcomes state', processTimed request messages state = .ok (outcomes, state')
          ∧ outcomes.length = messages.length) := by
  induction messages generalizing state with
  | nil =>
    refine .inr ⟨?_, [], state, rfl, rfl⟩
    rintro ⟨⟩
  | cons message rest ih =>
    obtain ⟨octets, now⟩ := message
    rw [processTimed]
    cases hfirst : processMessage request octets now state with
    | error breakdown =>
      cases breakdown
      exact .inl ⟨.first (processMessage_eq_error_iff.mp hfirst), rfl⟩
    | ok result =>
      obtain ⟨outcome, between⟩ := result
      simp only [bind, Except.bind]
      rcases ih between with ⟨hbreaks, herror⟩ | ⟨hbreaks, outcomes, state', hrest, hlength⟩
      · rw [herror]
        exact .inl ⟨.later hfirst hbreaks, rfl⟩
      · rw [hrest]
        refine .inr ⟨?_, outcome :: outcomes, state', rfl, congrArg (· + 1) hlength⟩
        rintro (h | ⟨hfirst', h⟩)
        · rw [processMessage_eq_error_iff.mpr h] at hfirst
          cases hfirst
        · rw [hfirst] at hfirst'
          cases hfirst'
          exact hbreaks h

/-- Outcomes are those of all messages of a payload, or the one of a payload that does not hold the
messages that it announces. -/
def Answers (payload : Octets) (outcomes : List Outcome) : Prop :=
  match Wire.split payload with
  | .error error => outcomes = [.rejected .framing error.message]
  | .ok parts => outcomes.length = parts.length

theorem answers_iff {clock : Nat → Instant} :
    (∃ outcomes state', processOver request clock state = .ok (outcomes, state')
        ∧ Answers request.payload outcomes)
      ↔ ∀ parts, Wire.split request.payload = .ok parts →
        ¬ BreaksDownAmong request (timed parts clock)
          { state with tally := state.tally.bump .requests } := by
  rw [processOver]
  simp only [Answers]
  cases Wire.split request.payload with
  | error error => simp
  | ok parts =>
    dsimp only
    rcases processTimed_spec request (timed parts clock)
        { state with tally := state.tally.bump .requests } with
      ⟨hbreaks, herror⟩ | ⟨hbreaks, outcomes, state', hok, hlength⟩
    · rw [herror]
      simp [hbreaks]
    · rw [timed, List.length_map, List.length_zipIdx] at hlength
      constructor
      · rintro - _ ⟨⟩
        exact hbreaks
      · intro
        exact ⟨outcomes, state', hok, hlength⟩

/-- Every request is answered in every state and at all times unless one of its messages breaks the
collector down. Such a message is one whose offset leads beyond the end of the calendar, and the
capture time of every other message is found, or is none, or is refused. -/
theorem processOver_answers_iff (request : Request) (clock : Nat → Instant) (state : State σ) :
    ((∃ outcomes state', processOver request clock state = .ok (outcomes, state')
        ∧ Answers request.payload outcomes)
      ↔ ∀ parts, Wire.split request.payload = .ok parts →
        ¬ BreaksDownAmong request (timed parts clock)
          { state with tally := state.tally.bump .requests })
    ∧ ∀ m : Message, m.captureTime = .error .outOfCalendar ↔ m.LeavesCalendar :=
  ⟨answers_iff, fun _ => Message.captureTime_eq_outOfCalendar_iff⟩

/-! ## Offsets into the past -/

/-- Only an offset into the future leads out of the calendar. -/
theorem BreaksDown.exists_offset_pos (h : BreaksDown octets now state) :
    ∃ m, Message.decode octets = .ok m ∧ 0 < m.offset := by
  obtain ⟨m, device, _, m', hdecode, -, -, -, hstamp, htext, -, -, start, -, -, -, hlate⟩ := h
  refine ⟨m, hdecode, ?_⟩
  have hoffset : 0 < m'.offset := by
    have hlast := start.in_range.2
    omega
  obtain ⟨stamp, -, hrefused⟩ | ⟨_, _, hanswer, hm⟩ := Stamp.process_fst_cases
    state.normalizer.stamps state.files device m.withoutRelays now
  · rw [hstamp] at hrefused
    cases hrefused
  · rw [hstamp] at hanswer
    cases hanswer
    obtain rfl | rfl | ⟨file, rfl | rfl⟩ := hm
    · exact hoffset
    · exact hoffset
    · exact hoffset
    · -- The present time is a timestamp.
      cases htext

theorem BreaksDownAmong.exists_offset_pos {messages : List (Octets × Instant)}
    (h : BreaksDownAmong request messages state) :
    ∃ message ∈ messages, ∃ m, Message.decode message.1 = .ok m ∧ 0 < m.offset := by
  induction h with
  | first h => exact ⟨_, List.mem_cons_self, h.exists_offset_pos⟩
  | later hfirst h ih =>
    obtain ⟨message, hmem, hoffset⟩ := ih
    exact ⟨message, List.mem_cons_of_mem _ hmem, hoffset⟩

/-- A request is answered when no message of it has an offset into the future. -/
theorem answers_of_offset_le {clock : Nat → Instant}
    (h : ∀ parts, Wire.split request.payload = .ok parts → ∀ octets ∈ parts, ∀ m,
      Message.decode octets = .ok m → m.offset ≤ 0) :
    ∃ outcomes state', processOver request clock state = .ok (outcomes, state')
      ∧ Answers request.payload outcomes := by
  rw [answers_iff]
  intro parts hsplit hbreaks
  obtain ⟨message, hmem, m, hdecode, hoffset⟩ := hbreaks.exists_offset_pos
  obtain ⟨⟨octets, index⟩, hpart, rfl⟩ := List.mem_map.mp hmem
  have hle := h parts hsplit octets (List.fst_mem_of_mem_zipIdx hpart) m hdecode
  omega

end Breakdowns

/-! ## A date near the end of the calendar -/

/-- A message with the last date and time of day of the calendar, and a second more. -/
def lateMessage : Message :=
  ((((Message.empty.set .deviceId (100 : UInt32)).set .captureDate (2601421231 : UInt32)).set
    .captureTime (235959 : UInt32)).set .captureOffset (1 : Int32)).set .tube0 (35 : UInt32)

/-- A request with that message alone. -/
def lateRequest : Request := { plainRequest with payload := lateMessage.encode }

/-- A well-formed message breaks the collector down when it is the first that is ever processed. -/
theorem process_lateRequest :
    process lateRequest .epoch freshState = .error .outOfCalendar
      ∧ Message.decode lateRequest.payload = .ok lateMessage
      ∧ lateMessage.captureTime = .error .outOfCalendar := by
  refine ⟨?_, eq_ok_of_toOption (by decide +kernel), by decide +kernel⟩
  have hnone : (process lateRequest .epoch freshState).toOption.isNone = true := by decide +kernel
  cases hprocess : process lateRequest .epoch freshState with
  | ok result =>
    rw [hprocess] at hnone
    cases hnone
  | error breakdown =>
    cases breakdown
    rfl

end FieldTelemetry.Pipeline.Normalizer
