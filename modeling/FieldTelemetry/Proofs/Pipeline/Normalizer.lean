import FieldTelemetry.Pipeline.Normalizer
import FieldTelemetry.Proofs.Intake.Dedup
import FieldTelemetry.Proofs.Stamp.Consistency

/-!
# What a message changes

A message is malformed, or it is a copy, or it is looked at: it is a command, or it has no sender,
or its stamp is processed. Only a message whose stamp was processed is accepted, and only such a
message changes stamps and stamp files.

## Main results

* `Normalizer.processReading_cases`, `Normalizer.processReading_eq_ok`: what becomes of a message of
  a device
* `Normalizer.processFresh_of_device`, `Normalizer.processFresh_of_nobody`,
  `Normalizer.processFresh_of_command`: the kinds of messages that are no copies
* `Normalizer.processMessage_of_error`, `Normalizer.processMessage_of_copy`,
  `Normalizer.processMessage_of_fresh`: the kinds of messages
* `Normalizer.processMessage_cases`: what a message changes and when it is accepted
* `Normalizer.isReading_of_accepted`: what is accepted is a reading of a device
-/

namespace FieldTelemetry.Pipeline.Normalizer

open Intake (Request)
open Stamp (StampStore)
open Time (Instant)
open Wire (Message)

variable {σ : Type} [StampStore σ] {request : Request} {octets : Octets} {now : Instant}
  {state state' : State σ} {outcome : Outcome}

theorem eq_ok_of_toOption {ε α : Type} {result : Except ε α} {a : α}
    (h : result.toOption = some a) : result = .ok a := by
  cases result with
  | error error => cases h
  | ok value =>
    cases h
    rfl

/-! ## Messages of a device -/

/-- The state after the stamp of a message was processed, with other counts. -/
def State.stamped (state : State σ) (device : String) (m : Message) (now : Instant)
    (tally : Tally) : State σ :=
  ⟨{ state.normalizer with
      stamps := (state.normalizer.stamps.process device m now state.files).2.1 },
    tally, (state.normalizer.stamps.process device m now state.files).2.2⟩

/-- A message of a device is rejected for its stamp, or it is accepted with what its stamp stands
for, unless its capture time breaks the collector down. -/
theorem processReading_cases (request : Request) (checksum : UInt32) (m : Message)
    (device : String) (now : Instant) (state : State σ) :
    (∃ error tally, (state.normalizer.stamps.process device m now state.files).1 = .error error
        ∧ processReading request checksum m device now state
          = .ok (.rejected .unstampable error.message, state.stamped device m now tally))
      ∨ ∃ stampOutcome m',
        (state.normalizer.stamps.process device m now state.files).1 = .ok (stampOutcome, m')
        ∧ ((∃ capturedAt tally, capturedAt? m' = .ok capturedAt
            ∧ processReading request checksum m device now state
              = .ok (.accepted (recordOf request checksum m' capturedAt (isDegraded stampOutcome)),
                  state.stamped device m now tally))
          ∨ ∃ breakdown, capturedAt? m' = .error breakdown
            ∧ processReading request checksum m device now state = .error breakdown) := by
  unfold State.stamped
  rw [processReading]
  -- The stamp has been processed when anything else is looked at.
  generalize state.normalizer.stamps.process device m now state.files = processed
  obtain ⟨result, stamps, files⟩ := processed
  cases result with
  | error error => exact .inl ⟨error, _, rfl, rfl⟩
  | ok answer =>
    obtain ⟨stampOutcome, m'⟩ := answer
    refine .inr ⟨stampOutcome, m', rfl, ?_⟩
    dsimp only
    cases capturedAt? m' with
    | ok capturedAt => exact .inl ⟨capturedAt, _, rfl, rfl⟩
    | error breakdown => exact .inr ⟨breakdown, rfl, rfl⟩

theorem processReading_eq_ok {checksum : UInt32} {m : Message} {device : String}
    (h : processReading request checksum m device now state = .ok (outcome, state')) :
    (∃ tally, state' = state.stamped device m now tally)
      ∧ ((∃ error, (state.normalizer.stamps.process device m now state.files).1 = .error error
          ∧ outcome = .rejected .unstampable error.message)
        ∨ ∃ stampOutcome m' capturedAt,
          (state.normalizer.stamps.process device m now state.files).1 = .ok (stampOutcome, m')
          ∧ capturedAt? m' = .ok capturedAt
          ∧ outcome
            = .accepted (recordOf request checksum m' capturedAt (isDegraded stampOutcome))) := by
  obtain ⟨error, tally, hstamp, hprocess⟩ | ⟨stampOutcome, m', hstamp,
      ⟨capturedAt, tally, htime, hprocess⟩ | ⟨breakdown, -, hprocess⟩⟩ :=
    processReading_cases request checksum m device now state
  · rw [hprocess] at h
    cases h
    exact ⟨⟨tally, rfl⟩, .inl ⟨error, hstamp, rfl⟩⟩
  · rw [hprocess] at h
    cases h
    exact ⟨⟨tally, rfl⟩, .inr ⟨stampOutcome, m', capturedAt, hstamp, htime, rfl⟩⟩
  · rw [hprocess] at h
    cases h

/-- A message of a device whose stamp was processed and whose capture time does not leave the
calendar is accepted. -/
theorem processReading_accepts (request : Request) (checksum : UInt32) {m m' : Message}
    {device : String} {stampOutcome : Stamp.StampOutcome} {capturedAt : Option Instant}
    (hstamp : (state.normalizer.stamps.process device m now state.files).1 = .ok (stampOutcome, m'))
    (htime : capturedAt? m' = .ok capturedAt) :
    ∃ state', processReading request checksum m device now state
      = .ok (.accepted (recordOf request checksum m' capturedAt (isDegraded stampOutcome)),
          state') := by
  obtain ⟨error, -, hrefused, -⟩ | ⟨_, _, hanswer, ⟨_, tally, htime', haccepts⟩ | ⟨_, htime', -⟩⟩ :=
    processReading_cases request checksum m device now state
  · rw [hstamp] at hrefused
    cases hrefused
  · rw [hstamp] at hanswer
    cases hanswer
    rw [htime] at htime'
    cases htime'
    exact ⟨_, haccepts⟩
  · rw [hstamp] at hanswer
    cases hanswer
    rw [htime] at htime'
    cases htime'

/-! ## Messages that are no copies -/

section Fresh

variable {checksum : UInt32} {m : Message}

theorem processFresh_of_device {device : String} (hsensor : m.isSensor = true)
    (hdevice : m.entityId? = some device) :
    processFresh request checksum m now state
      = processReading request checksum m.withoutRelays device now state := by
  have hid : m.withoutRelays.entityId? = some device := hdevice
  have hkind : m.withoutRelays.isSensor = true := hsensor
  unfold processFresh
  dsimp only
  rw [if_pos hkind, hid]

theorem processFresh_of_nobody (hsensor : m.isSensor = true) (hdevice : m.entityId? = none) :
    processFresh request checksum m now state
      = .ok (.rejected .unidentified "no device id",
          { state with tally := state.tally.bump .malformed }) := by
  have hid : m.withoutRelays.entityId? = none := hdevice
  have hkind : m.withoutRelays.isSensor = true := hsensor
  unfold processFresh
  dsimp only
  rw [if_pos hkind, hid]

theorem processFresh_of_command (hsensor : ¬ m.isSensor = true) :
    processFresh request checksum m now state
      = .ok (.command (commandOf request m.withoutRelays),
          { state with tally := state.tally.bump .commands }) := by
  have hkind : ¬ m.withoutRelays.isSensor = true := hsensor
  unfold processFresh
  dsimp only
  rw [if_neg hkind]

end Fresh

/-! ## Messages -/

section Messages

variable {m : Message}

/-- The state in which a message that is no copy is looked at: it is counted and remembered. -/
def State.sighted (state : State σ) (checksum : UInt32) (now : Instant) : State σ :=
  { state with
    tally := state.tally.bump .messages
    normalizer := { state.normalizer with
      dedup := { state.normalizer.dedup with
        ring := state.normalizer.dedup.ring.push ⟨checksum, now⟩ } } }

theorem processMessage_of_error {error : Wire.DecodeError}
    (hdecode : Message.decode octets = .error error) :
    processMessage request octets now state
      = .ok (.rejected .malformed error.message,
          { state with tally := (state.tally.bump .messages).bump .malformed }) := by
  rw [processMessage, hdecode]

theorem processMessage_of_copy (hdecode : Message.decode octets = .ok m)
    (hcopy : state.normalizer.dedup.Suppresses m.checksum now) :
    processMessage request octets now state
      = .ok (.duplicate m.checksum,
          { state with tally := (state.tally.bump .messages).bump .duplicates }) := by
  obtain ⟨age, hcheck⟩ := Intake.DedupRing.check_of_suppressed hcopy
  rw [processMessage, hdecode]
  dsimp only
  rw [hcheck]

theorem processMessage_of_fresh (hdecode : Message.decode octets = .ok m)
    (hfresh : ¬ state.normalizer.dedup.Suppresses m.checksum now) :
    processMessage request octets now state
      = processFresh request m.checksum m now (state.sighted m.checksum now) := by
  rw [processMessage, hdecode]
  dsimp only
  rw [Intake.DedupRing.check_of_fresh hfresh]
  rfl

/-- A message with measurements from a device is a copy, or its stamp is processed. -/
theorem processMessage_of_reading (request : Request) (now : Instant) (state : State σ)
    {device : String} (hdecode : Message.decode octets = .ok m) (hsensor : m.isSensor = true)
    (hdevice : m.entityId? = some device) :
    (∃ c state', processMessage request octets now state = .ok (.duplicate c, state'))
      ∨ ∃ before : State σ, before.normalizer.stamps = state.normalizer.stamps
        ∧ before.files = state.files
        ∧ processMessage request octets now state
          = processReading request m.checksum m.withoutRelays device now before := by
  by_cases hcopy : state.normalizer.dedup.Suppresses m.checksum now
  · exact .inl ⟨_, _, processMessage_of_copy hdecode hcopy⟩
  · refine .inr ⟨state.sighted m.checksum now, rfl, rfl, ?_⟩
    rw [processMessage_of_fresh hdecode hcopy, processFresh_of_device hsensor hdevice]

/-- A message leaves stamps and files alone and is not accepted, or it is no copy and its stamp is
processed. -/
theorem processMessage_cases
    (h : processMessage request octets now state = .ok (outcome, state')) :
    (state'.normalizer.stamps = state.normalizer.stamps ∧ state'.files = state.files
        ∧ ∀ record, outcome ≠ .accepted record)
      ∨ ∃ m device, Message.decode octets = .ok m ∧ m.entityId? = some device
        ∧ (∀ c, outcome ≠ .duplicate c)
        ∧ state'.normalizer.stamps
          = (state.normalizer.stamps.process device m.withoutRelays now state.files).2.1
        ∧ state'.files
          = (state.normalizer.stamps.process device m.withoutRelays now state.files).2.2
        ∧ ∀ record, outcome = .accepted record → ∃ stampOutcome m' capturedAt,
          (state.normalizer.stamps.process device m.withoutRelays now state.files).1
              = .ok (stampOutcome, m')
            ∧ capturedAt? m' = .ok capturedAt
            ∧ record = recordOf request m.checksum m' capturedAt (isDegraded stampOutcome) := by
  cases hdecode : Message.decode octets with
  | error error =>
    rw [processMessage_of_error hdecode] at h
    cases h
    exact .inl ⟨rfl, rfl, by simp⟩
  | ok m =>
    by_cases hcopy : state.normalizer.dedup.Suppresses m.checksum now
    · rw [processMessage_of_copy hdecode hcopy] at h
      cases h
      exact .inl ⟨rfl, rfl, by simp⟩
    · rw [processMessage_of_fresh hdecode hcopy] at h
      by_cases hsensor : m.isSensor = true
      · cases hdevice : m.entityId? with
        | none =>
          rw [processFresh_of_nobody hsensor hdevice] at h
          cases h
          exact .inl ⟨rfl, rfl, by simp⟩
        | some device =>
          rw [processFresh_of_device hsensor hdevice] at h
          refine .inr ⟨m, device, rfl, hdevice, ?_⟩
          obtain ⟨⟨tally, rfl⟩,
            ⟨error, -, rfl⟩ | ⟨stampOutcome, m', capturedAt, hstamp, htime, rfl⟩⟩ :=
            processReading_eq_ok h
          · exact ⟨by simp, rfl, rfl, by simp⟩
          · refine ⟨by simp, rfl, rfl, ?_⟩
            rintro record ⟨⟩
            exact ⟨stampOutcome, m', capturedAt, hstamp, htime, rfl⟩
      · rw [processFresh_of_command hsensor] at h
        cases h
        exact .inl ⟨rfl, rfl, by simp⟩

end Messages

/-! ## Senders of readings -/

section Senders

variable {m m' : Message} {device : String}

/-- What a stamp stands for does not change the sender of a message. -/
theorem entityId?_process {cache : Stamp.Cache} {files : σ} {stampOutcome : Stamp.StampOutcome}
    (h : (cache.process device m now files).1 = .ok (stampOutcome, m')) :
    m'.entityId? = m.entityId? := by
  obtain ⟨stamp, -, hrefused⟩ | ⟨_, _, hanswer, hm⟩ :=
    Stamp.process_fst_cases cache files device m now
  · rw [h] at hrefused
    cases hrefused
  · rw [h] at hanswer
    cases hanswer
    obtain rfl | rfl | ⟨file, rfl | rfl⟩ := hm <;> rfl

theorem entityId?_recordOf (request : Request) (checksum : UInt32) (m : Message)
    (capturedAt : Option Instant) (approximated : Bool) :
    (recordOf request checksum m capturedAt approximated).entityId? = m.entityId? := by
  change m.name?.or _ = _
  rw [Message.entityId?]
  cases m.name? <;> rfl

/-- A record is one of a device, and it shows how the gateway of a request heard the message. -/
def IsReading (request : Request) (record : SensorRecord) : Prop :=
  record.entityId?.isSome ∧ record.gateway = request.hints.reception?

theorem isReading_of_accepted {record : SensorRecord}
    (h : processMessage request octets now state = .ok (.accepted record, state')) :
    IsReading request record := by
  -- Only a message whose stamp was processed is accepted.
  rcases processMessage_cases h with ⟨-, -, hrejected⟩
    | ⟨m, device, -, hdevice, -, -, -, haccepted⟩
  · exact absurd rfl (hrejected record)
  · obtain ⟨stampOutcome, m', capturedAt, hprocess, -, rfl⟩ := haccepted record rfl
    refine ⟨?_, rfl⟩
    rw [entityId?_recordOf, entityId?_process hprocess]
    exact Option.isSome_of_eq_some hdevice

end Senders

end FieldTelemetry.Pipeline.Normalizer
