import FieldTelemetry.Proofs.Pipeline.StampRoundTrip
import FieldTelemetry.Proofs.Pipeline.Traffic
import FieldTelemetry.Proofs.Stamp.Frame
import FieldTelemetry.Proofs.Time.Strict

/-!
# Readings with the present time

A reading is approximated when its message refers to a stamp and the stamp of its device that can be
used is another one. It then has the present time as its capture time, to the nanosecond, whatever
times the message had.

## Main definitions

* `Cache.usable?`: the stamp of a device that a message which refers to one can get
* `Mismatched`: the messages that refer to another stamp than that

## Main results

* `Versioned.process`, `Run.versioned`: memory has stamps of the known version only
* `approximated_iff_mismatched`: which readings are approximated, and when they were captured
-/

namespace FieldTelemetry

open Time (Instant)
open Wire (Message)

/-! ## Stamps that can be used -/

namespace Stamp

section Usable

variable {σ : Type} [StampStore σ]

/-- The stamp of a device that a message which refers to one can get: the one in memory, or the one
in the file when memory does not hold the stamp that is referred to. -/
def Cache.usable? (cache : Cache) (device : String) (stamp : UInt32) (files : σ) :
    Option StampFile :=
  (if cache.hits device stamp then cache else (cache.reload device files).1).valid? device

theorem apply_eq_answer (cache : Cache) (device : String) (stamp : UInt32) (m : Message)
    (now : Instant) (files : σ) : (cache.apply device stamp m now files).1
      = answer (cache.usable? device stamp files) device stamp m now := by
  rw [Cache.usable?]
  by_cases hhits : cache.hits device stamp = true
  · rw [if_pos hhits, apply_of_hits m now hhits]
  · rw [if_neg hhits, apply_of_not_hits m now hhits]

/-- Memory relies on stamps of the known version only. -/
def Versioned (cache : Cache) : Prop :=
  ∀ device file, cache.valid? device = some file → file.version = knownVersion

theorem versioned_empty : Versioned {} := by
  intro device file h
  cases h

namespace Versioned

variable {cache : Cache} (h : Versioned cache)
include h

theorem of_changedFor {device : String} {after : Cache}
    (hchanged : ChangedFor device cache after) : Versioned after := by
  intro other file hvalid
  have hentry := (valid?_eq_some_iff after other).mp hvalid
  by_cases hother : other = device
  · subst hother
    rcases hchanged.source _ hentry with hversion | ⟨⟨old, valid⟩, hold, rfl, hrelied⟩
    · exact hversion
    · obtain rfl : valid = true := hrelied rfl
      exact h other old ((valid?_eq_some_iff cache other).mpr hold)
  · rw [hchanged.others other hother] at hentry
    exact h other file ((valid?_eq_some_iff cache other).mpr hentry)

/-- Messages bring stamps of the known version only, and so do the files that are read for them. -/
theorem process (device : String) (m : Message) (now : Instant) (files : σ) :
    Versioned (cache.process device m now files).2.1 :=
  h.of_changedFor (.process device cache m now files)

theorem usable? {device : String} {stamp : UInt32} {files : σ} {file : StampFile}
    (husable : cache.usable? device stamp files = some file) : file.version = knownVersion := by
  rw [Cache.usable?] at husable
  split at husable
  · exact h device file husable
  · exact h.of_changedFor (.reload device cache files) device file husable

end Versioned

/-- A message refers to a stamp, and the stamp of its device that it can get is another one. -/
def Mismatched (cache : Cache) (files : σ) (m : Message) : Prop :=
  ∃ device stamp file, m.entityId? = some device ∧ m.stampUse = .apply stamp
    ∧ cache.usable? device stamp files = some file ∧ file.stamp ≠ stamp

end Usable

end Stamp

namespace Pipeline.Normalizer

open Intake (Request)
open Stamp (Mismatched StampOutcome StampStore Versioned)

variable {σ : Type} [StampStore σ]

/-- The message with another stamp gets the present time. -/
theorem capturedAt?_relocated (file : Stamp.StampFile) (m : Message) {now : Instant}
    (hyear : 0 ≤ now.date.year ∧ now.date.year ≤ 9999) :
    capturedAt? (Stamp.relocated file m now) = .ok (some now) := by
  have htext : (Stamp.relocated file m now) .capturedAt = some now.numeric := rfl
  rw [capturedAt?, Message.captureTime, htext]
  dsimp only
  rw [Instant.ofStrict_numeric hyear]

/-- The place of another stamp is given to mismatched messages alone. -/
theorem isDegraded_iff {cache : Stamp.Cache} (hcache : Versioned cache) {device : String}
    {m m' : Message} {now : Instant} {files : σ} {stampOutcome : StampOutcome}
    (hdevice : m.entityId? = some device)
    (h : (cache.process device m now files).1 = .ok (stampOutcome, m')) :
    isDegraded stampOutcome = true ↔ Mismatched cache files m := by
  have hmismatched {stamp : UInt32} (huse : m.stampUse = .apply stamp) :
      Mismatched cache files m
        ↔ ∃ file, cache.usable? device stamp files = some file ∧ file.stamp ≠ stamp := by
    simp [Mismatched, hdevice, huse]
  cases huse : m.stampUse with
  | none =>
    rw [Stamp.process_of_none cache files device m now huse] at h
    cases h
    simp [isDegraded, Mismatched, huse]
  | set version stamp =>
    obtain ⟨persisted, hset⟩ := Stamp.exists_set_eq cache device m now version stamp files
    rw [Stamp.process_of_set cache files device m now huse, hset] at h
    cases h
    simp [isDegraded, Mismatched, huse]
  | apply stamp =>
    rw [Stamp.process_of_apply cache files device m now huse, Stamp.apply_eq_answer] at h
    rw [hmismatched huse]
    cases husable : cache.usable? device stamp files with
    | none =>
      rw [husable] at h
      cases h
    | some file =>
      have hversion := hcache.usable? husable
      rw [husable] at h
      by_cases hstamp : file.stamp = stamp
      · rw [Stamp.answer_same hversion device m now hstamp] at h
        cases h
        simp [isDegraded, hstamp]
      · rw [Stamp.answer_other hversion device m now hstamp] at h
        cases h
        simp [isDegraded, hstamp]

/-- A run from a new normalizer on brings stamps of the known version only into memory. -/
theorem Run.versioned {start state : State σ} {log : List Processed}
    (hstart : Versioned start.normalizer.stamps) (h : Run start log state) :
    Versioned state.normalizer.stamps := by
  induction h with
  | start => exact hstart
  | meanwhile h tally files ih => exact ih
  | message h hprocess ih =>
    rcases processMessage_cases hprocess with ⟨hstamps, -⟩ | ⟨m, device, -, -, -, hstamps, -⟩
    · rw [hstamps]
      exact ih
    · rw [hstamps]
      exact ih.process device m.withoutRelays _ _

/-- After any messages that a new normalizer has processed, a message with measurements from a
device that is no copy and refers to another stamp than the one that it can get is accepted. Its
record is approximated and was captured at present, to the nanosecond and also in a leap second,
whatever times the message had, since the text of an instant whose year has four digits denotes it.
No other record is approximated. -/
theorem approximated_iff_mismatched {window : Time.Span} {tally : Tally} {files : σ}
    {log : List Processed} {state : State σ} (hrun : Run ⟨.new window, tally, files⟩ log state)
    (request : Request) {octets : Octets} {m : Message} (hdecode : Message.decode octets = .ok m)
    (now : Instant) :
    (0 ≤ now.date.year ∧ now.date.year ≤ 9999 → Instant.ofStrict now.numeric = .ok now
        ∧ (m.isSensor = true → ¬ state.normalizer.dedup.Suppresses m.checksum now →
          Mismatched state.normalizer.stamps state.files m →
          ∃ record state', processMessage request octets now state = .ok (.accepted record, state')
            ∧ record.approximated = true ∧ record.capturedAt = some now))
      ∧ ∀ record state', processMessage request octets now state = .ok (.accepted record, state') →
        (record.approximated = true ↔ Mismatched state.normalizer.stamps state.files m) := by
  have hversioned : Versioned state.normalizer.stamps := hrun.versioned Stamp.versioned_empty
  refine ⟨fun hyear => ⟨Instant.ofStrict_numeric hyear, ?_⟩, ?_⟩
  · rintro hsensor hfresh ⟨device, stamp, file, hdevice, huse, husable, hstamp⟩
    have hversion := hversioned.usable? husable
    have hanswer : (state.normalizer.stamps.process device m.withoutRelays now state.files).1
        = .ok (.degraded stamp file.stamp, Stamp.relocated file m.withoutRelays now) := by
      have huse' : m.withoutRelays.stampUse = .apply stamp := huse
      rw [Stamp.process_of_apply _ _ device _ now huse', Stamp.apply_eq_answer, husable]
      exact Stamp.answer_other hversion device _ now hstamp
    -- To look at a message that is no copy leaves stamps and files as they are.
    have hsighted : ((state.sighted m.checksum now).normalizer.stamps.process device
        m.withoutRelays now (state.sighted m.checksum now).files).1
          = .ok (.degraded stamp file.stamp, Stamp.relocated file m.withoutRelays now) := hanswer
    obtain ⟨state', haccepts⟩ := processReading_accepts request m.checksum hsighted
      (capturedAt?_relocated file m.withoutRelays hyear)
    have hprocess : processMessage request octets now state = _ :=
      processMessage_of_fresh hdecode hfresh
    rw [processFresh_of_device hsensor hdevice, haccepts] at hprocess
    exact ⟨_, state', hprocess, rfl, rfl⟩
  · intro record state' hprocess
    rcases processMessage_cases hprocess with ⟨-, -, hrejected⟩
      | ⟨m', device, hdecode', hdevice, -, -, -, haccepted⟩
    · exact absurd rfl (hrejected record)
    · obtain rfl : m' = m := Except.ok.inj (hdecode'.symm.trans hdecode)
      obtain ⟨stampOutcome, m'', capturedAt, hanswer, -, rfl⟩ := haccepted record rfl
      exact isDegraded_iff (m := m'.withoutRelays) hversioned hdevice hanswer

/-- Half of the leap second at the end of the year 2016. -/
def leapSecond : Instant := ⟨1483228799, 1500000000, by decide, by decide, by decide⟩

/-- A message of a device that refers to its seventh stamp, with times of its own. -/
def strayMessage : Message :=
  ((((Message.empty.set .deviceId (100 : UInt32)).set .stamp (7 : UInt32)).set .capturedAt
    "1999-01-01T00:00:00Z").set .captureDate (240131 : UInt32)).set .captureOffset (60 : Int32)

/-- A message that refers to another stamp than the one that its device has set is captured in the
leap second in which it is processed. -/
theorem approximated_in_leapSecond :
    ∃ record₁ state₁ record₂ state₂,
      processMessage plainRequest (datedMessage none).encode .epoch freshState
          = .ok (.accepted record₁, state₁)
        ∧ processMessage plainRequest strayMessage.encode leapSecond state₁
          = .ok (.accepted record₂, state₂)
        ∧ record₁.approximated = false ∧ record₂.approximated = true
        ∧ record₂.capturedAt = some leapSecond := by
  have hsome : (accepted? (processMessage plainRequest (datedMessage none).encode .epoch
      freshState)).isSome = true := by
    decide +kernel
  have husable : ((accepted? (processMessage plainRequest (datedMessage none).encode .epoch
      freshState)).bind fun accepted =>
        accepted.2.normalizer.stamps.usable? "100" 7 accepted.2.files)
          = some ⟨1, 5, some ⟨0x3fc00000⟩, none, none, some 240131, some 120000⟩ := by
    decide +kernel
  have hcopies : ((accepted? (processMessage plainRequest (datedMessage none).encode .epoch
      freshState)).map fun accepted =>
        (accepted.2.normalizer.dedup.find? strayMessage.checksum leapSecond).isSome)
          = some false := by
    decide +kernel
  obtain ⟨⟨record₁, state₁⟩, haccepted⟩ := Option.isSome_iff_exists.mp hsome
  rw [haccepted] at husable hcopies
  have hprocess := eq_of_accepted? haccepted
  have hdecode : Message.decode (datedMessage none).encode = .ok (datedMessage none) :=
    decode_eq_ok (by decide +kernel)
  have hstray : Message.decode strayMessage.encode = .ok strayMessage :=
    decode_eq_ok (by decide +kernel)
  -- The first message sets a stamp, so it is not mismatched.
  have hset : ¬ Mismatched freshState.normalizer.stamps freshState.files (datedMessage none) := by
    rintro ⟨_, stamp, _, -, huse, -⟩
    have huse' : (datedMessage none).stampUse = .set 1 5 := by decide
    rw [huse'] at huse
    cases huse
  have hrecord₁ := (approximated_iff_mismatched .start plainRequest hdecode .epoch).2 _ _ hprocess
  have hfresh : ¬ state₁.normalizer.dedup.Suppresses strayMessage.checksum leapSecond := by
    have hnone : (state₁.normalizer.dedup.find? strayMessage.checksum leapSecond).isSome = false :=
      Option.some_inj.mp hcopies
    rw [← Intake.DedupRing.find?_isSome_iff, hnone]
    exact Bool.false_ne_true
  have hmismatched : Mismatched state₁.normalizer.stamps state₁.files strayMessage :=
    ⟨"100", 7, _, by decide, by decide, husable, by decide⟩
  have hrun : Run freshState [⟨plainRequest, (datedMessage none).encode, .epoch,
      .accepted record₁⟩] state₁ := .message .start hprocess
  obtain ⟨-, haccepts⟩ := (approximated_iff_mismatched hrun plainRequest hstray leapSecond).1
    (by decide)
  obtain ⟨record₂, state₂, hprocess₂, happroximated, hcaptured⟩ :=
    haccepts (by decide) hfresh hmismatched
  exact ⟨record₁, state₁, record₂, state₂, hprocess, hprocess₂,
    Bool.eq_false_of_not_eq_true fun h => hset (hrecord₁.mp h), happroximated, hcaptured⟩

end Pipeline.Normalizer

end FieldTelemetry
