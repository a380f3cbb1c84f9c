import FieldTelemetry.Proofs.Pipeline.Normalizer
import FieldTelemetry.Proofs.Stamp.Recall
import FieldTelemetry.Proofs.Wire.CaptureTime

/-!
# Records of messages with stamps

The record of a message that refers to a stamp has the place of the record of the message that set
it. Its capture time is the date and time of day that the stamp keeps, which is the capture time of
that record unless the message had a timestamp or an offset besides.

## Main definitions

* `Quiet`: traffic of a collector in which a device sets no stamp
* `Holds`, `Remembers`: the stamp of a device in the file, and in memory
* `dateTime?`: the instant of the date and the time of day of a message

## Main results

* `Quiet.holds`: the stamp of a device stays while the device sets no other
* `apply_restores`: the record of a message that refers to a stamp
-/

namespace FieldTelemetry.Pipeline.Normalizer

open Intake (Request)
open Json (reread)
open Stamp
open Time (Instant)
open Wire (Message composeDateTime? nano_of_composeDateTime?)

/-! ## Capture times -/

/-- The instant of a date and a time of day of six digits, when there are both. -/
def dateTime? : (date time : Option UInt32) → Option Instant
  | some date, some time => composeDateTime? date time
  | _, _ => none

/-- Without a timestamp and without an offset, the capture time is that of date and time of day. -/
theorem capturedAt?_of_dateTime {m : Message} (htext : (m .capturedAt : Option String) = none)
    (hoffset : (m .captureOffset : Option Int32) = none
      ∨ (m .captureOffset : Option Int32) = some (0 : Int32)) :
    capturedAt? m = .ok (dateTime? (m .captureDate) (m .captureTime)) := by
  -- No offset counts as one of zero.
  have helim : (m .captureOffset : Option Int32).elim 0 Int32.toInt = 0 := by
    rcases hoffset with hoffset | hoffset
    · rw [hoffset]
      rfl
    · rw [hoffset]
      rfl
  unfold capturedAt? Message.captureTime dateTime?
  rw [htext]
  cases (m .captureDate : Option UInt32) with
  | none => rfl
  | some date =>
    cases (m .captureTime : Option UInt32) with
    | none => rfl
    | some time =>
      dsimp only
      cases hstart : composeDateTime? date time with
      | none => rfl
      | some start =>
        have hnano := nano_of_composeDateTime? hstart
        dsimp only
        rw [helim, Instant.addSeconds?_zero (by rw [hnano]; decide)]

/-! ## Traffic in between -/

section Traffic

variable {σ : Type} [StampStore σ]

/-- What a collector does between two states: it processes messages, of which none that is no copy
sets a stamp of the device, it counts, and it starts again over the same files. -/
inductive Quiet (device : String) : State σ → State σ → Prop
  /-- Nothing happens. -/
  | refl (state : State σ) : Quiet device state state
  /-- A message is processed. -/
  | message {request : Request} {octets : Octets} {now : Instant} {state state' after : State σ}
      {outcome : Outcome} (h : processMessage request octets now state = .ok (outcome, state'))
      (hsets : ∀ m, Message.decode octets = .ok m → m.entityId? = some device →
        (∀ c, outcome ≠ .duplicate c) → ∀ version stamp, m.stampUse ≠ .set version stamp)
      (later : Quiet device state' after) : Quiet device state after
  /-- Something is counted. -/
  | count {state after : State σ} (tally : Tally)
      (later : Quiet device { state with tally } after) :
      Quiet device state after
  /-- The collector starts again. -/
  | restart {state after : State σ} (window : Time.Span)
      (later : Quiet device ⟨.new window, .zero, state.files⟩ after) : Quiet device state after

/-- The file of a device holds a stamp, and memory relies on no other. -/
def Holds (device : String) (file : StampFile) (state : State σ) : Prop :=
  filed? state.files device = some file
    ∧ Consistent state.normalizer.stamps state.files device

/-- Memory relies on a stamp of a device, and the file holds what is read from the text of it. -/
def Remembers (device : String) (file : StampFile) (state : State σ) : Prop :=
  state.normalizer.stamps.valid? device = some file
    ∧ filed? state.files device = some (reread file)

section Answers

variable {device : String} {file : StampFile} {state : State σ}

/-- A stamp that is read as it was is held by the file too. -/
theorem Remembers.holds (h : Remembers device file state) (hfile : reread file = file) :
    Holds device file state := by
  have hfiled : filed? state.files device = some file := h.2.trans (congrArg some hfile)
  refine ⟨hfiled, ?_⟩
  intro held hvalid
  rw [h.1] at hvalid
  cases hvalid
  exact hfiled

variable {m : Message} (now : Instant) (huse : m.stampUse = .apply file.stamp)
include huse

/-- Memory and file agree on a stamp that the file holds, so the answer is that of the file. -/
theorem Holds.process_eq (h : Holds device file state) :
    (state.normalizer.stamps.process device m now state.files).1
      = .ok (.applied file.stamp, restored file m) := by
  rw [h.2.process_apply _ _ _ huse, h.1]
  exact answer_same (version_of_filed? h.1) device m now rfl

/-- A stamp in memory is used without the file. -/
theorem Remembers.process_eq (h : Remembers device file state) :
    (state.normalizer.stamps.process device m now state.files).1
      = .ok (.applied file.stamp, restored file m) := by
  have hhits : state.normalizer.stamps.hits device file.stamp = true := by
    rw [Cache.hits, h.1, Option.any_some, beq_self_eq_true]
  -- Only the numbers of a place can be read as others than they were.
  have hread : (reread file).version = knownVersion := version_of_filed? h.2
  have hversion : file.version = knownVersion := hread
  rw [process_of_apply _ _ _ _ _ huse, apply_of_hits _ _ hhits, h.1]
  exact answer_same hversion device m now rfl

end Answers

variable [LawfulStampStore σ] {device : String} {file : StampFile}

/-- Processing a message keeps the stamp of a device when the message is not one of the device that
sets a stamp. -/
theorem holds_process {cache : Cache} {files : σ} (hfiled : filed? files device = some file)
    (hcache : Consistent cache files device) {other : String} {m : Message} (now : Instant)
    (hsets : other = device → ∀ version stamp, m.stampUse ≠ .set version stamp) :
    filed? (cache.process other m now files).2.2 device = some file
      ∧ Consistent (cache.process other m now files).2.1 (cache.process other m now files).2.2
        device := by
  by_cases hother : device = other
  · subst hother
    cases huse : m.stampUse with
    | none =>
      rw [process_of_none _ _ _ _ _ huse]
      exact ⟨hfiled, hcache⟩
    | apply stamp =>
      rw [process_of_apply _ _ _ _ _ huse]
      exact ⟨(Consistent.filed?_apply _ _ _ _ _).trans hfiled, hcache.apply device stamp m now⟩
    | set version stamp => exact absurd huse (hsets rfl version stamp)
  · -- A message of another device leaves memory and file of this one alone.
    have hkept : filed? (cache.process other m now files).2.2 device = some file := by
      rw [filed?_process, if_neg hother]
      exact hfiled
    refine ⟨hkept, ?_⟩
    intro held hvalid
    rw [valid?_process_of_ne _ _ _ _ _ hother] at hvalid
    rw [hkept, ← hfiled]
    exact hcache held hvalid

/-- Processing a message keeps the stamp of a device in memory when the message is not one of the
device that sets a stamp. Memory takes over what the file holds when the message is one of the
device that refers to another stamp. -/
theorem remembers_process {cache : Cache} {files : σ} (hvalid : cache.valid? device = some file)
    (hfiled : filed? files device = some (reread file)) {other : String} {m : Message}
    (now : Instant) (hsets : other = device → ∀ version stamp, m.stampUse ≠ .set version stamp) :
    filed? (cache.process other m now files).2.2 device = some (reread file)
      ∧ ((cache.process other m now files).2.1.valid? device = some file
        ∨ (cache.process other m now files).2.1.valid? device = some (reread file)
          ∧ other = device ∧ ∃ stamp, m.stampUse = .apply stamp ∧ stamp ≠ file.stamp) := by
  by_cases hother : device = other
  · subst hother
    cases huse : m.stampUse with
    | none =>
      rw [process_of_none _ _ _ _ _ huse]
      exact ⟨hfiled, .inl hvalid⟩
    | apply stamp =>
      rw [process_of_apply _ _ _ _ _ huse]
      refine ⟨(Consistent.filed?_apply _ _ _ _ _).trans hfiled, ?_⟩
      by_cases hstamp : file.stamp = stamp
      · left
        have hhits : cache.hits device stamp = true := by
          rw [Cache.hits, hvalid, Option.any_some, hstamp, beq_self_eq_true]
        rw [apply_of_hits _ _ hhits]
        exact hvalid
      · right
        have hhits : ¬ cache.hits device stamp = true := by
          rw [Cache.hits, hvalid, Option.any_some, beq_iff_eq]
          exact hstamp
        rw [apply_of_not_hits _ _ hhits, valid?_reload, if_pos rfl, hfiled]
        exact ⟨rfl, rfl, stamp, rfl, fun heq => hstamp heq.symm⟩
    | set version stamp => exact absurd huse (hsets rfl version stamp)
  · rw [filed?_process, if_neg hother, valid?_process_of_ne _ _ _ _ _ hother]
    exact ⟨hfiled, .inl hvalid⟩

/-- The stamp of a device stays while the device sets no other. -/
theorem Quiet.holds {state after : State σ} (hquiet : Quiet device state after)
    (h : Holds device file state) : Holds device file after := by
  induction hquiet with
  | refl => exact h
  | message hprocess hsets later ih =>
    apply ih
    rcases processMessage_cases hprocess with ⟨hstamps, hfiles, -⟩
      | ⟨m, other, hdecode, hother, hcopy, hstamps, hfiles, -⟩
    · rw [Holds, hstamps, hfiles]
      exact h
    · rw [Holds, hstamps, hfiles]
      refine holds_process h.1 h.2 _ ?_
      rintro rfl
      exact hsets m hdecode hother hcopy
  | count tally later ih => exact ih h
  | restart window later ih => exact ih ⟨h.1, consistent_empty _ device⟩

/-! ## Messages that set a stamp -/

/-- A message of a device that sets a stamp of the known version has been accepted as a record, and
the stamp was stored. -/
structure AcceptedSet (device : String) (stamp : UInt32) (m : Message) (record : SensorRecord)
    (before after : State σ) : Prop where
  /-- The message is one of the device. -/
  device_eq : m.entityId? = some device
  /-- It sets the stamp. -/
  stampUse_eq : m.stampUse = .set knownVersion stamp
  /-- It was accepted, and the stamp was stored. -/
  accepted : ∃ request octets now, Message.decode octets = .ok m
    ∧ processMessage request octets now before = .ok (.accepted record, after)
    ∧ (before.normalizer.stamps.process device m.withoutRelays now before.files).1
      = .ok (.set stamp true, m.withoutRelays.withoutStamp)

/-- A message that has been accepted, and whose stamp was stored, has a place that is read back. -/
structure StoredSet (device : String) (stamp : UInt32) (m : Message) (record : SensorRecord)
    (before after : State σ) : Prop extends AcceptedSet device stamp m record before after where
  /-- Its latitude and longitude are read back from their texts. -/
  survives : PlaceSurvives m

/-- The stamp that a message sets. -/
def stampOf (m : Message) (stamp : UInt32) : StampFile :=
  ⟨knownVersion, stamp, m .latitude, m .longitude, m .altitude, m .captureDate, m .captureTime⟩

/-- The place that a record gets from a stamp. -/
def placeOf (file : StampFile) : Option Location :=
  SensorRecord.group? ⟨file.latitude, file.longitude, file.altitude⟩

/-- Memory relies on a stamp that was stored, and its record has the place and the capture time of
the message. -/
theorem AcceptedSet.remembers {stamp : UInt32} {m : Message} {record : SensorRecord}
    {before after : State σ} (h : AcceptedSet device stamp m record before after) :
    Remembers device (stampOf m stamp) after
      ∧ record.location = placeOf (stampOf m stamp)
      ∧ capturedAt? m.withoutRelays.withoutStamp = .ok record.capturedAt := by
  obtain ⟨request, octets, now, hdecode, hprocess, hstored⟩ := h.accepted
  rcases processMessage_cases hprocess with ⟨-, -, hrecord⟩
    | ⟨m', device', hdecode', hdevice', -, hstamps, hfiles, haccepted⟩
  · exact absurd rfl (hrecord record)
  · rw [hdecode] at hdecode'
    cases hdecode'
    rw [h.device_eq] at hdevice'
    cases hdevice'
    -- Taking the relays out of a message does not change its stamp.
    have huse : m.withoutRelays.stampUse = .set knownVersion stamp := h.stampUse_eq
    refine ⟨?_, ?_⟩
    · rw [Remembers, hstamps, hfiles]
      rw [process_of_set _ _ _ _ _ huse] at hstored ⊢
      obtain ⟨file, hcapture, -, hcache, hset⟩ | ⟨houtcome, -, -⟩ := set_spec
        before.normalizer.stamps before.files device knownVersion stamp m.withoutRelays now
      · have hfile := ofOctets?_capture hcapture
        obtain ⟨-, rfl⟩ := capture_eq_ok hcapture
        refine ⟨?_, ?_⟩
        · rw [hcache, Cache.valid?_remember, if_pos rfl]
          rfl
        · rw [filed?, hset, if_pos rfl]
          exact hfile
      · rw [houtcome] at hstored
        cases hstored
    · obtain ⟨stampOutcome, m', capturedAt, hresult, htime, hrecord⟩ := haccepted record rfl
      rw [hstored] at hresult
      cases hresult
      subst hrecord
      exact ⟨rfl, htime⟩

theorem reread_stampOf {m : Message} (h : PlaceSurvives m) (stamp : UInt32) :
    reread (stampOf m stamp) = stampOf m stamp := by
  have hfile : (stampOf m stamp).Survives := h
  exact hfile.reread_eq

/-! ## Messages that refer to a stamp -/

/-- After a message of a device has set a stamp that was stored, and while the device sets no other,
a message of the device that refers to the stamp and has no offset is a copy, or it is accepted. Its
record has the place of the message that set the stamp, and the instant of the date and time of day
of that message, which is the capture time of its record when it had neither a timestamp nor an
offset. -/
theorem apply_restores {stamp : UInt32} {m₁ m₂ : Message} {record₁ : SensorRecord}
    {state₀ state₁ state₂ : State σ} (hset : StoredSet device stamp m₁ record₁ state₀ state₁)
    (hquiet : Quiet device state₁ state₂) (request : Request) {octets : Octets} (now : Instant)
    (hdecode : Message.decode octets = .ok m₂) (hsensor : m₂.isSensor = true)
    (hdevice : m₂.entityId? = some device) (huse : m₂.stampUse = .apply stamp)
    (hoffset : (m₂ .captureOffset : Option Int32) = none) :
    ∃ outcome state₃, processMessage request octets now state₂ = .ok (outcome, state₃)
      ∧ ((∃ checksum, outcome = .duplicate checksum)
        ∨ ∃ record₂, outcome = .accepted record₂ ∧ record₂.location = record₁.location
          ∧ record₂.capturedAt = dateTime? (m₁ .captureDate) (m₁ .captureTime)
          ∧ ((m₁ .capturedAt : Option String) = none →
              ((m₁ .captureOffset : Option Int32) = none
                ∨ (m₁ .captureOffset : Option Int32) = some (0 : Int32)) →
            record₂.capturedAt = record₁.capturedAt)) := by
  obtain ⟨hremembers, hlocation, htime₁⟩ := hset.remembers
  have hholds := hquiet.holds (hremembers.holds (reread_stampOf hset.survives stamp))
  rcases processMessage_of_reading request now state₂ hdecode hsensor hdevice with
    ⟨checksum, state₃, hcopy⟩ | ⟨before, hstamps, hfiles, hprocess⟩
  · exact ⟨_, state₃, hcopy, .inl ⟨checksum, rfl⟩⟩
  · have huse' : m₂.withoutRelays.stampUse = .apply stamp := huse
    -- The answer is that of the file, which holds the stamp of the first message.
    have hanswer : (before.normalizer.stamps.process device m₂.withoutRelays now before.files).1
        = .ok (.applied stamp, restored (stampOf m₁ stamp) m₂.withoutRelays) := by
      rw [hstamps, hfiles]
      exact hholds.process_eq now huse'
    -- The stamp has brought date and time of day, and an old timestamp is gone.
    have htime : capturedAt? (restored (stampOf m₁ stamp) m₂.withoutRelays)
        = .ok (dateTime? (m₁ .captureDate) (m₁ .captureTime)) :=
      capturedAt?_of_dateTime rfl (.inl hoffset)
    obtain ⟨state₃, haccepts⟩ := processReading_accepts request m₂.checksum hanswer
      htime
    refine ⟨_, state₃, hprocess.trans haccepts, .inr ⟨_, rfl, ?_, rfl, ?_⟩⟩
    · rw [hlocation]
      rfl
    · intro htext hoffset₁
      have hsame := capturedAt?_of_dateTime (m := m₁.withoutRelays.withoutStamp) htext hoffset₁
      rw [hsame] at htime₁
      exact (Except.ok.inj htime₁)

end Traffic

/-! ## A timestamp with an offset -/

/-- A request whose payload does not matter. -/
def plainRequest : Request := ⟨[], "device-udp:192.0.2.10", .epoch, {}, 0⟩

/-- A message of a device that sets its fifth stamp with a date and a time of day, and with an
offset from them. -/
def datedMessage (offset : Option Int32) : Message :=
  ((settingMessage.set .deviceId (100 : UInt32)).set .captureTime (120000 : UInt32)).update
    .captureOffset offset

/-- A message of the device that refers to its fifth stamp. -/
def laterMessage : Message := referringMessage.set .deviceId (100 : UInt32)

/-- A collector that starts over an empty folder. -/
def freshState : State Store.Folder := ⟨.new Intake.dedupWindow, .zero, .empty⟩

/-- The record of a message that was accepted, and the state afterwards. -/
def accepted? {σ : Type} : Except Breakdown (Outcome × State σ) → Option (SensorRecord × State σ)
  | .ok (.accepted record, state) => some (record, state)
  | _ => none

theorem eq_of_accepted? {σ : Type} {result : Except Breakdown (Outcome × State σ)}
    {record : SensorRecord} {state : State σ} (h : accepted? result = some (record, state)) :
    result = .ok (.accepted record, state) := by
  unfold accepted? at h
  split at h
  · cases h
    rfl
  · cases h

theorem decode_eq_ok {octets : Octets} {m : Message}
    (h : (Message.decode octets).toOption = some m) : Message.decode octets = .ok m :=
  eq_ok_of_toOption h

/-- The offset of the message that set a stamp is lost: its record is an hour later than the one of
the message that refers to the stamp. -/
theorem offset_not_restored :
    (do
      let (record₁, state) ← accepted? (processMessage plainRequest
        (datedMessage (some 3600)).encode .epoch freshState)
      let (record₂, _) ← accepted? (processMessage plainRequest laterMessage.encode .epoch state)
      return (record₁.location == record₂.location,
        (← record₁.capturedAt).since (← record₂.capturedAt)))
      = some (true, 3600 * 1000000000) := by
  decide +kernel

/-- Without an offset the record has the place and the capture time of the one before, also when the
collector has started again. -/
theorem apply_restores_after_restart :
    ∃ record₁ state₁ outcome state₃,
      processMessage plainRequest (datedMessage none).encode .epoch freshState
          = .ok (.accepted record₁, state₁)
        ∧ processMessage plainRequest laterMessage.encode .epoch
            (⟨.new Intake.dedupWindow, .zero, state₁.files⟩ : State Store.Folder)
          = .ok (outcome, state₃)
        ∧ ∀ record₂, outcome = .accepted record₂ →
          record₂.location = record₁.location ∧ record₂.capturedAt = record₁.capturedAt := by
  have hsome : (accepted? (processMessage plainRequest (datedMessage none).encode .epoch
      freshState)).isSome = true := by
    decide +kernel
  obtain ⟨⟨record₁, state₁⟩, haccepted⟩ := Option.isSome_iff_exists.mp hsome
  have hprocess := eq_of_accepted? haccepted
  have hdecode : Message.decode (datedMessage none).encode = .ok (datedMessage none) :=
    decode_eq_ok (by decide +kernel)
  have hlater : Message.decode laterMessage.encode = .ok laterMessage :=
    decode_eq_ok (by decide +kernel)
  have hset : StoredSet "100" 5 (datedMessage none) record₁ freshState state₁ := by
    refine ⟨⟨by decide, by decide, ?_⟩, settingMessage_survives 5 (by decide)⟩
    refine ⟨plainRequest, _, .epoch, hdecode, hprocess, ?_⟩
    decide +kernel
  have hquiet : Quiet "100" state₁ (⟨.new Intake.dedupWindow, .zero, state₁.files⟩ :
      State Store.Folder) :=
    .restart _ (.refl _)
  obtain ⟨outcome, state₃, hafter, hrecord⟩ := apply_restores hset hquiet plainRequest .epoch hlater
    (by decide) (by decide) (by decide) rfl
  refine ⟨record₁, state₁, outcome, state₃, hprocess, hafter, ?_⟩
  rintro record₂ rfl
  rcases hrecord with ⟨checksum, hcopy⟩ | ⟨record, hrecord, hlocation, -, htime⟩
  · cases hcopy
  · cases hrecord
    exact ⟨hlocation, htime rfl (.inl rfl)⟩

end FieldTelemetry.Pipeline.Normalizer
