import FieldTelemetry.Proofs.Stamp.StampFile
import FieldTelemetry.Proofs.Stamp.Storage

/-!
# Memory and files

A file holds the stamp that was stored last, as it is read from its text. Where the places of stamps
survive their texts, memory relies on a stamp of a device only while the file of the device holds
it, and a message that refers to a stamp is answered by the file, whether or not memory was asked.

## Main definitions

* `filed?`: the stamp in the file of a device
* `Consistent`: memory relies on no stamp of a device that its file does not hold
* `answer`: the answer to a message that refers to a stamp
* `persisted?`: the stamp that a message has set and that was stored

## Main results

* `Consistent.apply_eq`: messages are answered by the files
* `filed?_process`, `Consistent.process`: the files after a message, and their consistency
-/

namespace FieldTelemetry.Stamp

open Json (reread)
open Time (Instant)
open Wire (Message)

/-! ## Memory -/

namespace Cache

theorem valid?_eq (cache : Cache) (device : String) : cache.valid? device =
    match cache.entries.get? device with
    | some ⟨file, true⟩ => some file
    | _ => none := rfl

@[simp]
theorem valid?_remember (cache : Cache) (device other : String) (file : StampFile) :
    (cache.remember device file).valid? other
      = if other = device then some file else cache.valid? other := by
  rw [valid?_eq, valid?_eq, remember, Table.get?_insert]
  by_cases h : other = device
  · rw [if_pos h, if_pos h]
  · rw [if_neg h, if_neg h]

@[simp]
theorem valid?_distrust (cache : Cache) (device other : String) :
    (cache.distrust device).valid? other
      = if other = device then none else cache.valid? other := by
  rw [distrust]
  cases hentry : cache.entry? device with
  | none =>
    by_cases h : other = device
    · rw [if_pos h, h, valid?, hentry]
    · rw [if_neg h]
  | some entry =>
    rw [valid?_eq, valid?_eq, Table.get?_insert]
    by_cases h : other = device
    · rw [if_pos h, if_pos h]
    · rw [if_neg h, if_neg h]

end Cache

/-! ## Files -/

section Files

variable {σ : Type} [StampStore σ]

/-- The stamp in the file of a device. -/
def filed? (state : σ) (device : String) : Option StampFile :=
  (stored? state device).bind StampFile.ofOctets?

/-- Memory relies on no stamp of a device that its file does not hold. -/
def Consistent (cache : Cache) (state : σ) (device : String) : Prop :=
  ∀ file, cache.valid? device = some file → filed? state device = some file

theorem consistent_empty (state : σ) (device : String) : Consistent {} state device := by
  intro file h
  cases h

theorem version_of_filed? {state : σ} {device : String} {file : StampFile}
    (h : filed? state device = some file) : file.version = knownVersion := by
  rw [filed?, Option.bind_eq_some_iff] at h
  obtain ⟨octets, -, hfile⟩ := h
  exact StampFile.version_of_ofOctets? hfile

theorem reload_eq (cache : Cache) (device : String) (state : σ) :
    cache.reload device state
      = (match filed? state device with
          | some file => cache.remember device file
          | none => cache, (StampStore.read state device).2) := by
  rw [Cache.reload, filed?, stored?]
  generalize StampStore.read state device = found
  obtain ⟨fetched, after⟩ := found
  -- Only a file that can be read and has a stamp of the known version is remembered.
  cases fetched with
  | failed => rfl
  | absent => rfl
  | contents octets =>
    dsimp only
    rw [Option.bind_some]
    cases StampFile.ofOctets? octets with
    | none => rfl
    | some file => rfl

/-- Memory relies on the stamp of a file that has been read, and on what it relied on before when
there is none. -/
theorem valid?_reload (cache : Cache) (device : String) (state : σ) (other : String) :
    (cache.reload device state).1.valid? other
      = if other = device then (filed? state device).or (cache.valid? device)
        else cache.valid? other := by
  rw [reload_eq]
  cases filed? state device with
  | some file => exact Cache.valid?_remember cache device other file
  | none =>
    by_cases hother : other = device
    · rw [if_pos hother, hother]
      rfl
    · rw [if_neg hother]

end Files

/-! ## References to a stamp -/

/-- The answer to a message that refers to a stamp, by the latest stamp of its device. -/
def answer (held : Option StampFile) (device : String) (stamp : UInt32) (m : Message)
    (now : Instant) : Except StampError (StampOutcome × Message) :=
  match held with
  | none => .error (.unstampable device stamp)
  | some file =>
    if file.stamp = stamp then
      match file.substitute m with
      | .ok m => .ok (.applied stamp, m.withoutStamp)
      | .error _ => .error (.unstampable device stamp)
    else
      match Cache.approximate file m now with
      | .ok m => .ok (.degraded stamp file.stamp, m.withoutStamp)
      | .error _ => .error (.unstampable device stamp)

/-- The message has the place of a stamp. -/
def HasPlaceOf (m : Message) (file : StampFile) : Prop :=
  m .latitude = file.latitude ∧ m .longitude = file.longitude ∧ m .altitude = file.altitude

/-- The message has the date and the time of day of a stamp. -/
def HasTimeOf (m : Message) (file : StampFile) : Prop :=
  m .captureDate = file.captureDate ∧ m .captureTime = file.captureTime

/-- The message with the place of a stamp. -/
def placed (file : StampFile) (m : Message) : Message :=
  ((m.update .latitude file.latitude).update .longitude file.longitude).update .altitude
    file.altitude

/-- The message with the place and time of a stamp, and without the number of it. -/
def restored (file : StampFile) (m : Message) : Message :=
  ((((placed file m).update .capturedAt none).update .captureDate file.captureDate).update
    .captureTime file.captureTime).withoutStamp

/-- The message with the place of a stamp and the present time, and without the number of it. -/
def relocated (file : StampFile) (m : Message) (now : Instant) : Message :=
  (((placed file m).set .capturedAt now.numeric).erase
    [.captureDate, .captureTime, .captureOffset]).withoutStamp

theorem restored_hasPlaceOf (file : StampFile) (m : Message) : HasPlaceOf (restored file m) file :=
  ⟨rfl, rfl, rfl⟩

theorem restored_hasTimeOf (file : StampFile) (m : Message) : HasTimeOf (restored file m) file :=
  ⟨rfl, rfl⟩

theorem relocated_hasPlaceOf (file : StampFile) (m : Message) (now : Instant) :
    HasPlaceOf (relocated file m now) file :=
  ⟨rfl, rfl, rfl⟩

section Answers

variable {file : StampFile} (hversion : file.version = knownVersion) (device : String)
  {stamp : UInt32} (m : Message) (now : Instant)
include hversion

/-- A message gets the place and time of its stamp. -/
theorem answer_same (hstamp : file.stamp = stamp) :
    answer (some file) device stamp m now = .ok (.applied stamp, restored file m) := by
  have hplaced : file.substituteLocation m = .ok (placed file m) := if_pos hversion
  simp only [answer, if_pos hstamp, StampFile.substitute, hplaced]
  rfl

/-- A message gets the place of another stamp than its own. -/
theorem answer_other (hstamp : file.stamp ≠ stamp) :
    answer (some file) device stamp m now
      = .ok (.degraded stamp file.stamp, relocated file m now) := by
  have hplaced : file.substituteLocation m = .ok (placed file m) := if_pos hversion
  simp only [answer, if_neg hstamp, Cache.approximate, hplaced]
  rfl

end Answers

/-- A stamp of another version is as good as none. -/
theorem answer_of_unknown {file : StampFile} (hversion : file.version ≠ knownVersion)
    (device : String) (stamp : UInt32) (m : Message) (now : Instant) :
    answer (some file) device stamp m now = .error (.unstampable device stamp) := by
  have hplaced : file.substituteLocation m = .error (.unsupportedVersion file.version) :=
    if_neg hversion
  rw [answer]
  simp only [StampFile.substitute, Cache.approximate, hplaced]
  split <;> rfl

/-- A message is refused, or it gets place and time of a stamp, or its place and the present
time. -/
theorem answer_cases (held : Option StampFile) (device : String) (stamp : UInt32) (m : Message)
    (now : Instant) :
    answer held device stamp m now = .error (.unstampable device stamp)
      ∨ ∃ outcome file, answer held device stamp m now = .ok (outcome, restored file m)
        ∨ answer held device stamp m now = .ok (outcome, relocated file m now) := by
  cases held with
  | none => exact .inl rfl
  | some file =>
    by_cases hversion : file.version = knownVersion
    · by_cases hstamp : file.stamp = stamp
      · exact .inr ⟨_, file, .inl (answer_same hversion device m now hstamp)⟩
      · exact .inr ⟨_, file, .inr (answer_other hversion device m now hstamp)⟩
    · exact .inl (answer_of_unknown hversion device stamp m now)

section Apply

variable {σ : Type} [StampStore σ] {cache : Cache} {state : σ} {device : String} {stamp : UInt32}
  (m : Message) (now : Instant)

theorem apply_of_hits (h : cache.hits device stamp = true) :
    cache.apply device stamp m now state
      = (answer (cache.valid? device) device stamp m now, cache, state) := by
  rw [Cache.apply, if_pos h]
  rfl

theorem apply_of_not_hits (h : ¬ cache.hits device stamp = true) :
    cache.apply device stamp m now state
      = (answer ((cache.reload device state).1.valid? device) device stamp m now,
          (cache.reload device state).1, (cache.reload device state).2) := by
  rw [Cache.apply, if_neg h]
  rfl

theorem exists_answer :
    ∃ held, (cache.apply device stamp m now state).1 = answer held device stamp m now := by
  by_cases hhits : cache.hits device stamp = true
  · exact ⟨_, congrArg Prod.fst (apply_of_hits m now hhits)⟩
  · exact ⟨_, congrArg Prod.fst (apply_of_not_hits m now hhits)⟩

end Apply

namespace Consistent

variable {σ : Type} [StampStore σ] {cache : Cache} {state : σ} {device : String}

/-- What memory relies on after a file was read is in the file. -/
theorem or_valid? (h : Consistent cache state device) :
    (filed? state device).or (cache.valid? device) = filed? state device := by
  cases hfiled : filed? state device with
  | some file => rfl
  | none =>
    cases hvalid : cache.valid? device with
    | none => rfl
    | some file =>
      -- Memory relies on nothing when the file holds nothing.
      rw [h file hvalid] at hfiled
      cases hfiled

variable (device) (stamp : UInt32) (m : Message) (now : Instant)

/-- Messages that refer to a stamp are answered by the file. -/
theorem apply_eq (h : Consistent cache state device) :
    (cache.apply device stamp m now state).1 = answer (filed? state device) device stamp m now := by
  by_cases hhits : cache.hits device stamp = true
  · rw [apply_of_hits m now hhits]
    -- The stamp in memory is the one of the file.
    rw [Cache.hits, Option.any_eq_true] at hhits
    obtain ⟨file, hvalid, -⟩ := hhits
    rw [hvalid, h file hvalid]
  · rw [apply_of_not_hits m now hhits, valid?_reload, if_pos rfl, h.or_valid?]

theorem filed?_apply [LawfulStampStore σ] (other : String) :
    filed? (cache.apply device stamp m now state).2.2 other = filed? state other := by
  by_cases hhits : cache.hits device stamp = true
  · rw [apply_of_hits m now hhits]
  · rw [apply_of_not_hits m now hhits, reload_eq, filed?, LawfulStampStore.stored?_read]
    rfl

/-- Consistency survives messages that refer to a stamp. -/
theorem apply [LawfulStampStore σ] {other : String} (h : Consistent cache state other) :
    Consistent (cache.apply device stamp m now state).2.1
      (cache.apply device stamp m now state).2.2 other := by
  intro file hvalid
  rw [filed?_apply]
  by_cases hhits : cache.hits device stamp = true
  · rw [apply_of_hits m now hhits] at hvalid
    exact h file hvalid
  · rw [apply_of_not_hits m now hhits] at hvalid
    dsimp only at hvalid
    rw [valid?_reload] at hvalid
    -- Reading a file again changes what is relied on for its device only.
    by_cases hother : other = device
    · subst hother
      rwa [if_pos rfl, h.or_valid?] at hvalid
    · rw [if_neg hother] at hvalid
      exact h file hvalid

end Consistent

/-! ## Messages that set a stamp -/

/-- Latitude and longitude of a message are read back from their texts. -/
def PlaceSurvives (m : Message) : Prop :=
  (∀ x ∈ (m .latitude : Option Binary32), x.Survives)
    ∧ (∀ x ∈ (m .longitude : Option Binary32), x.Survives)

/-- If the message sets a stamp of the known version, its latitude and longitude are read back. -/
def StampSurvives (m : Message) : Prop :=
  ∀ stamp, m.stampUse = .set knownVersion stamp → PlaceSurvives m

/-- The captured stamp has the known version and its number, and the place and the date and time of
day of the message. -/
theorem capture_eq_ok {version stamp : UInt32} {m : Message} {file : StampFile}
    (h : StampFile.capture version stamp m = .ok file) :
    version = knownVersion ∧ file = ⟨version, stamp, m .latitude, m .longitude, m .altitude,
      m .captureDate, m .captureTime⟩ := by
  rw [StampFile.capture] at h
  split at h
  · rename_i hversion
    cases h
    exact ⟨hversion, rfl⟩
  · cases h

/-- The stamp of a message is read from its file. -/
theorem ofOctets?_capture {version stamp : UInt32} {m : Message} {file : StampFile}
    (h : StampFile.capture version stamp m = .ok file) :
    StampFile.ofOctets? file.render = some (reread file) := by
  obtain ⟨rfl, rfl⟩ := capture_eq_ok h
  exact StampFile.ofOctets?_render rfl

theorem survives_of_capture {version stamp : UInt32} {m : Message} {file : StampFile}
    (h : StampFile.capture version stamp m = .ok file) (huse : m.stampUse = .set version stamp)
    (hm : StampSurvives m) : file.Survives := by
  obtain ⟨rfl, rfl⟩ := capture_eq_ok h
  exact hm stamp huse

section Set

variable {σ : Type} [StampStore σ] [LawfulStampStore σ] (cache : Cache) (state : σ)
  (device : String) (version stamp : UInt32) (m : Message) (now : Instant)

/-- A stamp is stored and remembered, or the files stay and memory relies on the stamp no more. -/
theorem set_spec :
    (∃ file, StampFile.capture version stamp m = .ok file
        ∧ (cache.set device version stamp m now state).1 = .set stamp true
        ∧ (cache.set device version stamp m now state).2.1
          = (cache.distrust device).remember device file
        ∧ ∀ other, stored? (cache.set device version stamp m now state).2.2 other
          = if other = device then some file.render else stored? state other)
      ∨ ((cache.set device version stamp m now state).1 = .set stamp false
        ∧ (cache.set device version stamp m now state).2.1 = cache.distrust device
        ∧ ∀ other, stored? (cache.set device version stamp m now state).2.2 other
          = stored? state other) := by
  rw [Cache.set]
  cases hcapture : StampFile.capture version stamp m with
  | error _ => exact .inr ⟨rfl, rfl, fun _ => rfl⟩
  | ok file =>
    -- The write may fail, and then memory has already been made to forget the stamp.
    have hwrite := LawfulStampStore.stored?_write state device file.render now
    dsimp only
    generalize StampStore.write state device file.render now = result at hwrite ⊢
    obtain ⟨done, after⟩ := result
    cases done with
    | true => exact .inl ⟨file, rfl, rfl, rfl, fun other => by simpa using hwrite other⟩
    | false => exact .inr ⟨rfl, rfl, fun other => by simpa using hwrite other⟩

end Set

/-! ## Messages -/

/-- The stamp that a message has set, if it was reported stored. -/
def persisted? (m : Message) (result : Except StampError (StampOutcome × Message)) :
    Option StampFile :=
  match m.stampUse, result with
  | .set version stamp, .ok (.set _ true, _) => (StampFile.capture version stamp m).toOption
  | _, _ => none

theorem persisted?_set {m : Message} {version stamp : UInt32}
    (huse : m.stampUse = .set version stamp)
    (stamp' : UInt32) (stored : Bool) (m' : Message) :
    persisted? m (.ok (.set stamp' stored, m'))
      = if stored then (StampFile.capture version stamp m).toOption else none := by
  unfold persisted?
  rw [huse]
  cases stored <;> rfl

theorem persisted?_of_not_set {m : Message} (h : ∀ version stamp, m.stampUse ≠ .set version stamp)
    (result : Except StampError (StampOutcome × Message)) : persisted? m result = none := by
  unfold persisted?
  split
  · rename_i huse
    exact absurd huse (h _ _)
  · rfl

/-- A stamp that was stored is read as it was when the place of its message survives. -/
theorem map_reread_persisted? {m : Message} (hm : StampSurvives m)
    (result : Except StampError (StampOutcome × Message)) :
    (persisted? m result).map reread = persisted? m result := by
  unfold persisted?
  split
  · rename_i version stamp _ _ huse
    cases hcapture : StampFile.capture version stamp m with
    | error _ => rfl
    | ok file => exact congrArg some (survives_of_capture hcapture huse hm).reread_eq
  · rfl

section Process

variable {σ : Type} [StampStore σ] [LawfulStampStore σ] (cache : Cache) (state : σ)
  (device : String) (m : Message) (now : Instant)

omit [LawfulStampStore σ] in
theorem process_of_none (huse : m.stampUse = .none) :
    cache.process device m now state = (.ok (.unstamped, m), cache, state) := by
  simp only [Cache.process, huse]

omit [LawfulStampStore σ] in
theorem process_of_set {version stamp : UInt32} (huse : m.stampUse = .set version stamp) :
    cache.process device m now state
      = (.ok ((cache.set device version stamp m now state).1, m.withoutStamp),
          (cache.set device version stamp m now state).2) := by
  simp only [Cache.process, huse]

omit [LawfulStampStore σ] in
theorem process_of_apply {stamp : UInt32} (huse : m.stampUse = .apply stamp) :
    cache.process device m now state = cache.apply device stamp m now state := by
  simp only [Cache.process, huse]

omit [LawfulStampStore σ] in
/-- A message goes on as it is, or without its stamp, or with what its stamp stands for. Only one
that refers to a stamp is refused, when no stamp of its device can be used. -/
theorem process_fst_cases :
    (∃ stamp, m.stampUse = .apply stamp
        ∧ (cache.process device m now state).1 = .error (.unstampable device stamp))
      ∨ ∃ outcome m', (cache.process device m now state).1 = .ok (outcome, m')
        ∧ (m' = m ∨ m' = m.withoutStamp
          ∨ ∃ file, m' = restored file m ∨ m' = relocated file m now) := by
  cases huse : m.stampUse with
  | none =>
    rw [process_of_none cache state device m now huse]
    exact .inr ⟨_, m, rfl, .inl rfl⟩
  | set version stamp =>
    rw [process_of_set cache state device m now huse]
    exact .inr ⟨_, _, rfl, .inr (.inl rfl)⟩
  | apply stamp =>
    rw [process_of_apply cache state device m now huse]
    obtain ⟨held, hheld⟩ : ∃ held, (cache.apply device stamp m now state).1
        = answer held device stamp m now := exists_answer m now
    rw [hheld]
    obtain hrefused | ⟨outcome, file, hsame | hother⟩ := answer_cases held device stamp m now
    · exact .inl ⟨stamp, rfl, hrefused⟩
    · exact .inr ⟨outcome, _, hsame, .inr (.inr ⟨file, .inl rfl⟩)⟩
    · exact .inr ⟨outcome, _, hother, .inr (.inr ⟨file, .inr rfl⟩)⟩

/-- A message changes the file of its device to the stamp that it was reported to have stored, and
no other file. -/
theorem filed?_process (other : String) :
    filed? (cache.process device m now state).2.2 other
      = if other = device then
          ((persisted? m (cache.process device m now state).1).map reread).or (filed? state device)
        else filed? state other := by
  cases huse : m.stampUse with
  | none =>
    rw [persisted?_of_not_set (by simp [huse]), Option.map_none, Option.none_or,
      process_of_none cache state device m now huse]
    split
    · rename_i hother
      rw [hother]
    · rfl
  | apply stamp =>
    rw [persisted?_of_not_set (by simp [huse]), Option.map_none, Option.none_or,
      process_of_apply cache state device m now huse, Consistent.filed?_apply]
    split
    · rename_i hother
      rw [hother]
    · rfl
  | set version stamp =>
    rw [process_of_set cache state device m now huse]
    dsimp only
    obtain ⟨file, hcapture, houtcome, -, hstored⟩ | ⟨houtcome, -, hstored⟩ :=
      set_spec cache state device version stamp m now
    · rw [houtcome, persisted?_set huse, hcapture, filed?, hstored]
      -- The file of the device holds the captured stamp.
      by_cases hother : other = device
      · rw [if_pos hother, if_pos hother, Option.bind_some, ofOctets?_capture hcapture]
        rfl
      · rw [if_neg hother, if_neg hother]
        rfl
    · rw [houtcome, persisted?_set huse, filed?, hstored]
      split
      · rename_i hother
        rw [hother]
        rfl
      · rfl

/-- Memory goes on with what it relied on for other devices. -/
theorem valid?_process_of_ne {other : String} (hother : other ≠ device) :
    (cache.process device m now state).2.1.valid? other = cache.valid? other := by
  cases huse : m.stampUse with
  | none => rw [process_of_none cache state device m now huse]
  | apply stamp =>
    rw [process_of_apply cache state device m now huse]
    by_cases hhits : cache.hits device stamp = true
    · rw [apply_of_hits m now hhits]
    · rw [apply_of_not_hits m now hhits, valid?_reload, if_neg hother]
  | set version stamp =>
    rw [process_of_set cache state device m now huse]
    obtain ⟨file, -, -, hcache, -⟩ | ⟨-, hcache, -⟩ :=
      set_spec cache state device version stamp m now
    · rw [hcache, Cache.valid?_remember, if_neg hother, Cache.valid?_distrust, if_neg hother]
    · rw [hcache, Cache.valid?_distrust, if_neg hother]

variable {cache state}

/-- Consistency survives messages. -/
theorem Consistent.process {other : String} (h : Consistent cache state other)
    (hm : StampSurvives m) :
    Consistent (cache.process device m now state).2.1 (cache.process device m now state).2.2
      other := by
  by_cases hother : other = device
  · subst hother
    cases huse : m.stampUse with
    | none =>
      rw [process_of_none cache state other m now huse]
      exact h
    | apply stamp =>
      rw [process_of_apply cache state other m now huse]
      exact h.apply other stamp m now
    | set version stamp =>
      intro file hvalid
      rw [process_of_set cache state other m now huse] at hvalid ⊢
      -- Memory relies on the stamp that was stored, and it forgets one that was not.
      obtain ⟨captured, hcapture, -, hcache, hstored⟩ | ⟨-, hcache, -⟩ :=
        set_spec cache state other version stamp m now
      · rw [hcache, Cache.valid?_remember, if_pos rfl] at hvalid
        cases hvalid
        rw [filed?, hstored, if_pos rfl, Option.bind_some, ofOctets?_capture hcapture,
          (survives_of_capture hcapture huse hm).reread_eq]
      · rw [hcache, Cache.valid?_distrust, if_pos rfl] at hvalid
        cases hvalid
  · intro file hvalid
    rw [valid?_process_of_ne _ _ _ _ _ hother] at hvalid
    rw [filed?_process, if_neg hother]
    exact h file hvalid

omit [LawfulStampStore σ] in
/-- A message that refers to a stamp is answered by the file of its device. -/
theorem Consistent.process_apply (h : Consistent cache state device) {stamp : UInt32}
    (huse : m.stampUse = .apply stamp) :
    (cache.process device m now state).1 = answer (filed? state device) device stamp m now := by
  rw [process_of_apply cache state device m now huse]
  exact h.apply_eq device stamp m now

end Process

end FieldTelemetry.Stamp
