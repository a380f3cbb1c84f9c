import FieldTelemetry.Proofs.Stamp.Recall

/-!
# What a message leaves alone

A message gets place and time of its stamp in several steps, each of which changes the message where
it stands. A message that is refused has been through none of them, and memory is as it was. No
message touches the stamps of other devices, and a message that refers to a stamp writes no file.

## Main definitions

* `Edit`: steps that change a message where it stands
* `Cache.processInPlace`: a message with what its stamp stands for, in such steps
* `Observed`: stamp files with a list of those that were read or written
* `Reached`: the memories that messages lead to, over any files
* `Framed`: what a message changes, and what it leaves alone

## Main results

* `Cache.processInPlace_eq`: a message that is refused stays as it was
* `Reached.onlyKnown`: memory holds stamps of the known version only
* `process_framed`: all messages keep to the frame
-/

namespace FieldTelemetry

open Time (Instant)
open Wire (Field Message)

/-! ## Fields that are left out -/

namespace Wire.Message

theorem update_none_eq_erase (m : Message) (f : Field) : m.update f none = m.erase [f] := by
  refine Message.ext (funext fun g => ?_)
  by_cases hg : g = f
  · subst hg
    simp [update, erase]
  · simp [update, erase, hg]

theorem erase_erase (m : Message) (fields others : List Field) :
    (m.erase fields).erase others = m.erase (fields ++ others) := by
  refine Message.ext (funext fun f => ?_)
  simp only [erase, List.mem_append]
  by_cases hothers : f ∈ others <;> simp [hothers]

theorem erase_of_not_mem (m : Message) {fields : List Field} {f : Field} (hf : f ∉ fields) :
    m.erase fields f = m f := if_neg hf

end Wire.Message

namespace Stamp

/-! ## Steps on a message -/

/-- Steps that change a message where it stands, up to the first that fails. What was changed before
that stays changed. -/
abbrev Edit (α : Type) : Type := ExceptT StampError (StateM Message) α

namespace Edit

variable {α : Type}

/-- The result of some steps, and the message after them. -/
def on (edit : Edit α) (m : Message) : Except StampError α × Message := edit m

/-- A field gets another value, or none. -/
def assign (f : Field) (value : Option f.Value) : Edit Unit :=
  modify fun m => m.update f value

/-- The stamp fields are left out. -/
def stripStamp : Edit Unit := modify fun m => m.withoutStamp

/-- Steps that are possible for stamps of the known version only. -/
def requireVersion (file : StampFile) : Edit Unit :=
  if file.version = knownVersion then pure () else throw (.unsupportedVersion file.version)

/-- The message gets the place of a stamp. -/
def assignPlace (file : StampFile) : Edit Unit := do
  requireVersion file
  assign .latitude file.latitude
  assign .longitude file.longitude
  assign .altitude file.altitude

/-- The message gets the place and time of a stamp. -/
def assignPlaceAndTime (file : StampFile) : Edit Unit := do
  requireVersion file
  assignPlace file
  assign .capturedAt none
  assign .captureDate file.captureDate
  assign .captureTime file.captureTime

/-- The message gets the present time. -/
def assignPresent (now : Instant) : Edit Unit := do
  assign .capturedAt (some now.numeric)
  assign .captureDate none
  assign .captureTime none
  assign .captureOffset none

/-- Whichever error some steps end with, it is reported that the stamp cannot be used. -/
def orUnstampable (device : String) (stamp : UInt32) (edit : Edit α) : Edit α :=
  ExceptT.adapt (fun _ => .unstampable device stamp) edit

/-- The message gets what the stamp of its device stands for. -/
def applyHeld (held : Option StampFile) (device : String) (stamp : UInt32) (now : Instant) :
    Edit StampOutcome :=
  match held with
  | none => throw (.unstampable device stamp)
  | some file =>
    if file.stamp = stamp then do
      orUnstampable device stamp (assignPlaceAndTime file)
      stripStamp
      return .applied stamp
    else do
      orUnstampable device stamp (assignPlace file)
      assignPresent now
      stripStamp
      return .degraded stamp file.stamp

/-! ### What the steps do -/

theorem on_bind {β : Type} (edit : Edit α) (next : α → Edit β) (m : Message) :
    (edit >>= next).on m = match edit.on m with
      | (.ok a, m') => (next a).on m'
      | (.error error, m') => (.error error, m') := by
  have hbind : (edit >>= next).on m = ExceptT.bindCont next (edit.on m).1 (edit.on m).2 := rfl
  rw [hbind]
  rcases edit.on m with ⟨_ | _, _⟩ <;> rfl

theorem on_stripStamp (m : Message) : stripStamp.on m = (.ok (), m.withoutStamp) := rfl

/-- What was changed before a failure stays changed. -/
theorem on_orUnstampable (device : String) (stamp : UInt32) (edit : Edit α) (m : Message) :
    (orUnstampable device stamp edit).on m
      = ((edit.on m).1.mapError fun _ => .unstampable device stamp, (edit.on m).2) := rfl

theorem on_requireVersion (file : StampFile) (m : Message) : (requireVersion file).on m
    = if file.version = knownVersion then (.ok (), m)
      else (.error (.unsupportedVersion file.version), m) := by
  rw [requireVersion]
  split <;> rfl

theorem on_assignPlace (file : StampFile) (m : Message) : (assignPlace file).on m
    = if file.version = knownVersion then (.ok (), placed file m)
      else (.error (.unsupportedVersion file.version), m) := by
  rw [assignPlace, on_bind, on_requireVersion]
  by_cases hversion : file.version = knownVersion
  · rw [if_pos hversion, if_pos hversion]
    rfl
  · rw [if_neg hversion, if_neg hversion]

/-- A stamp of another version is refused before the message has its place. -/
theorem on_assignPlaceAndTime (file : StampFile) (m : Message) : (assignPlaceAndTime file).on m
    = if file.version = knownVersion then (.ok (), (((placed file m).update .capturedAt none).update
        .captureDate file.captureDate).update .captureTime file.captureTime)
      else (.error (.unsupportedVersion file.version), m) := by
  rw [assignPlaceAndTime, on_bind, on_requireVersion]
  by_cases hversion : file.version = knownVersion
  · rw [if_pos hversion, if_pos hversion]
    dsimp only
    rw [on_bind, on_assignPlace, if_pos hversion]
    rfl
  · rw [if_neg hversion, if_neg hversion]

/-- The times are left out one by one. -/
theorem on_assignPresent (now : Instant) (m : Message) : (assignPresent now).on m
    = (.ok (), (m.set .capturedAt now.numeric).erase
        [.captureDate, .captureTime, .captureOffset]) := by
  have herase : (((m.set .capturedAt now.numeric).update .captureDate none).update .captureTime
        none).update .captureOffset none
      = (m.set .capturedAt now.numeric).erase [.captureDate, .captureTime, .captureOffset] := by
    simp only [Message.update_none_eq_erase, Message.erase_erase, List.cons_append, List.nil_append]
  rw [← herase]
  rfl

/-- The message gets what the answer has, and one that is refused stays as it was. -/
theorem on_applyHeld (held : Option StampFile) (device : String) (stamp : UInt32) (now : Instant)
    (m : Message) : (applyHeld held device stamp now).on m
      = match answer held device stamp m now with
        | .ok (outcome, m') => (.ok outcome, m')
        | .error error => (.error error, m) := by
  cases held with
  | none => rfl
  | some file =>
    rw [applyHeld]
    by_cases hversion : file.version = knownVersion
    · by_cases hstamp : file.stamp = stamp
      · rw [answer_same hversion device m now hstamp, if_pos hstamp, on_bind, on_orUnstampable,
          on_assignPlaceAndTime, if_pos hversion]
        rfl
      · rw [answer_other hversion device m now hstamp, if_neg hstamp, on_bind, on_orUnstampable,
          on_assignPlace, if_pos hversion]
        dsimp only [Except.mapError]
        rw [on_bind, on_assignPresent]
        rfl
    · rw [answer_of_unknown hversion]
      by_cases hstamp : file.stamp = stamp
      · rw [if_pos hstamp, on_bind, on_orUnstampable, on_assignPlaceAndTime, if_neg hversion]
        rfl
      · rw [if_neg hstamp, on_bind, on_orUnstampable, on_assignPlace, if_neg hversion]
        rfl

end Edit

/-! ## Messages where they stand -/

/-- What has become of a message, with the message, the memory and the files afterwards. -/
structure Aftermath (σ : Type) where
  /-- What was done to the message, or why it was refused. -/
  result : Except StampError StampOutcome
  /-- The message as it is left. -/
  message : Message
  /-- The stamps in memory. -/
  cache : Cache
  /-- The files. -/
  files : σ

namespace Cache

variable {σ : Type} [StampStore σ]

/-- A message of a device gets what its stamp stands for and loses its stamp, where it stands. -/
def processInPlace (cache : Cache) (device : String) (m : Message) (now : Instant) (files : σ) :
    Aftermath σ :=
  match m.stampUse with
  | .none => ⟨.ok .unstamped, m, cache, files⟩
  | .set version stamp =>
    let (outcome, cache, files) := cache.set device version stamp m now files
    let (_, m) := Edit.stripStamp.on m
    ⟨.ok outcome, m, cache, files⟩
  | .apply stamp =>
    let (cache, files) :=
      if cache.hits device stamp then (cache, files) else cache.reload device files
    let (result, m) := (Edit.applyHeld (cache.valid? device) device stamp now).on m
    ⟨result, m, cache, files⟩

/-- A message is left with what its stamp stands for, and as it was when it is refused. -/
theorem processInPlace_eq (cache : Cache) (device : String) (m : Message) (now : Instant)
    (files : σ) : cache.processInPlace device m now files
      = match cache.process device m now files with
        | (.ok (outcome, m'), cache', files') => ⟨.ok outcome, m', cache', files'⟩
        | (.error error, cache', files') => ⟨.error error, m, cache', files'⟩ := by
  cases huse : m.stampUse with
  | none =>
    rw [process_of_none cache files device m now huse]
    simp only [processInPlace, huse]
  | set version stamp =>
    rw [process_of_set cache files device m now huse]
    simp only [processInPlace, huse, Edit.on_stripStamp]
  | apply stamp =>
    rw [process_of_apply cache files device m now huse]
    simp only [processInPlace, huse, Edit.on_applyHeld]
    by_cases hhits : cache.hits device stamp = true
    · rw [apply_of_hits m now hhits, if_pos hhits]
      rcases answer (cache.valid? device) device stamp m now with _ | ⟨_, _⟩ <;> rfl
    · rw [apply_of_not_hits m now hhits, if_neg hhits]
      rcases answer ((cache.reload device files).1.valid? device) device stamp m now
        with _ | ⟨_, _⟩ <;> rfl

theorem cache_processInPlace (cache : Cache) (device : String) (m : Message) (now : Instant)
    (files : σ) : (cache.processInPlace device m now files).cache
      = (cache.process device m now files).2.1 := by
  rw [processInPlace_eq]
  rcases cache.process device m now files with ⟨_ | _, _⟩ <;> rfl

end Cache

/-! ## Files that are read or written -/

/-- A reading or writing of a stamp file. -/
inductive Access
  /-- The file of a device is read. -/
  | read (device : String)
  /-- The file of a device is written. -/
  | write (device : String)
deriving DecidableEq

/-- The device whose file is read or written. -/
def Access.device : Access → String
  | .read device | .write device => device

/-- Stamp files with a list of what was read and written. -/
structure Observed (σ : Type) where
  /-- The files. -/
  files : σ
  /-- What was read and written, the latest last. -/
  accesses : List Access := []

section Observers

variable {σ : Type} [StampStore σ]

instance : StampStore (Observed σ) where
  read observed device :=
    let (fetched, files) := StampStore.read observed.files device
    (fetched, ⟨files, observed.accesses ++ [.read device]⟩)
  write observed device contents now :=
    let (done, files) := StampStore.write observed.files device contents now
    (done, ⟨files, observed.accesses ++ [.write device]⟩)

namespace Observed

theorem read_eq (observed : Observed σ) (device : String) :
    StampStore.read observed device = ((StampStore.read observed.files device).1,
      ⟨(StampStore.read observed.files device).2, observed.accesses ++ [.read device]⟩) := rfl

theorem write_eq (observed : Observed σ) (device : String) (contents : Octets) (now : Instant) :
    StampStore.write observed device contents now
      = ((StampStore.write observed.files device contents now).1,
        ⟨(StampStore.write observed.files device contents now).2,
          observed.accesses ++ [.write device]⟩) := rfl

end Observed

end Observers

/-! ## What a message does to memory and files -/

section Steps

variable {σ : Type} [StampStore σ] (cache : Cache) (device : String) (m : Message) (now : Instant)

theorem entry?_remember (file : StampFile) (other : String) :
    Cache.entry? (cache.remember device file) other
      = if other = device then some ⟨file, true⟩ else cache.entry? other :=
  Table.get?_insert ..

theorem entry?_distrust (other : String) : Cache.entry? (cache.distrust device) other
    = if other = device then cache.entry? device |>.map fun entry => { entry with valid := false }
      else cache.entry? other := by
  rw [Cache.distrust]
  cases hentry : cache.entry? device with
  | none =>
    by_cases hother : other = device
    · rw [if_pos hother, hother, hentry]
      rfl
    · rw [if_neg hother]
  | some entry => exact Table.get?_insert ..

theorem valid?_eq_some_iff {file : StampFile} :
    cache.valid? device = some file ↔ cache.entry? device = some ⟨file, true⟩ := by
  rw [Cache.valid?]
  split
  · rename_i file' hentry
    simp [hentry]
  · rename_i hentry
    refine ⟨?_, fun h => absurd h (hentry file)⟩
    rintro ⟨⟩

theorem set_of_error {version stamp : UInt32} {error : StampError}
    (hcapture : StampFile.capture version stamp m = .error error) (files : σ) :
    cache.set device version stamp m now files
      = (.set stamp false, cache.distrust device, files) := by
  rw [Cache.set, hcapture]

theorem set_of_ok {version stamp : UInt32} {file : StampFile}
    (hcapture : StampFile.capture version stamp m = .ok file) (files : σ) :
    cache.set device version stamp m now files
      = (.set stamp (StampStore.write files device file.render now).1,
        if (StampStore.write files device file.render now).1
          then (cache.distrust device).remember device file else cache.distrust device,
        (StampStore.write files device file.render now).2) := by
  rw [Cache.set, hcapture]
  dsimp only
  rcases StampStore.write files device file.render now with ⟨_ | _, _⟩ <;> rfl

theorem exists_set_eq (version stamp : UInt32) (files : σ) :
    ∃ persisted, (cache.set device version stamp m now files).1 = .set stamp persisted := by
  cases hcapture : StampFile.capture version stamp m with
  | error error => exact ⟨false, by rw [set_of_error cache device m now hcapture]⟩
  | ok file => exact ⟨_, by rw [set_of_ok cache device m now hcapture]⟩

/-- The files that a message reads and writes. -/
def Cache.accessesOf (cache : Cache) (device : String) (m : Message) : List Access :=
  match m.stampUse with
  | .none => []
  | .set version _ => if version = knownVersion then [.write device] else []
  | .apply stamp => if cache.hits device stamp then [] else [.read device]

variable (observed : Observed σ)

theorem reload_observed : cache.reload device observed
    = ((cache.reload device observed.files).1,
      ⟨(cache.reload device observed.files).2, observed.accesses ++ [.read device]⟩) := by
  rw [reload_eq, reload_eq]
  rfl

/-- A message reads or writes the file of its device, or none, and otherwise does what it does when
nobody looks. -/
theorem processInPlace_observed : cache.processInPlace device m now observed
    = { cache.processInPlace device m now observed.files with
        files := ⟨(cache.processInPlace device m now observed.files).files,
          observed.accesses ++ cache.accessesOf device m⟩ } := by
  cases huse : m.stampUse with
  | none => simp only [Cache.processInPlace, Cache.accessesOf, huse, List.append_nil]
  | set version stamp =>
    simp only [Cache.processInPlace, Cache.accessesOf, huse]
    cases hcapture : StampFile.capture version stamp m with
    | error error =>
      have hversion : version ≠ knownVersion := by
        rintro rfl
        cases hcapture
      simp only [set_of_error cache device m now hcapture, if_neg hversion, List.append_nil]
    | ok file =>
      simp only [set_of_ok cache device m now hcapture, Observed.write_eq,
        if_pos (capture_eq_ok hcapture).1]
  | apply stamp =>
    simp only [Cache.processInPlace, Cache.accessesOf, huse]
    by_cases hhits : cache.hits device stamp = true
    · simp only [if_pos hhits, List.append_nil]
    · simp only [if_neg hhits, reload_observed]

end Steps

/-! ## Memory -/

/-- The memories that messages lead to, each message over any files. -/
inductive Reached (σ : Type) [StampStore σ] : Cache → Prop
  /-- Nothing is in memory at first. -/
  | start : Reached σ {}
  /-- A message has been processed. -/
  | message {cache : Cache} (h : Reached σ cache) (device : String) (m : Message) (now : Instant)
    (files : σ) : Reached σ (cache.processInPlace device m now files).cache

/-- Memory has changed for a device at most, where it has no stamps but those that it had and some
of the known version. -/
structure ChangedFor (device : String) (before after : Cache) : Prop where
  /-- What it has of other devices has stayed. -/
  others : ∀ other, other ≠ device → after.entry? other = before.entry? other
  /-- Its stamp of the device has the known version, or was there before, and relied on if it is
  now. -/
  source : ∀ entry, after.entry? device = some entry → entry.file.version = knownVersion
    ∨ ∃ old, before.entry? device = some old ∧ old.file = entry.file
      ∧ (entry.valid = true → old.valid = true)

namespace ChangedFor

variable {device : String} {before middle after : Cache}

theorem refl (device : String) (cache : Cache) : ChangedFor device cache cache :=
  ⟨fun _ _ => rfl, fun entry hentry => .inr ⟨entry, hentry, rfl, id⟩⟩

theorem trans (h : ChangedFor device before middle) (h' : ChangedFor device middle after) :
    ChangedFor device before after := by
  refine ⟨fun other hother => (h'.others other hother).trans (h.others other hother), ?_⟩
  intro entry hentry
  rcases h'.source entry hentry with hversion | ⟨old, hold, hfile, hvalid⟩
  · exact .inl hversion
  · rw [← hfile]
    rcases h.source old hold with hversion | ⟨older, holder, hfile', hvalid'⟩
    · exact .inl hversion
    · exact .inr ⟨older, holder, hfile', hvalid' ∘ hvalid⟩

theorem distrust (device : String) (cache : Cache) :
    ChangedFor device cache (cache.distrust device) := by
  refine ⟨fun other hother => (entry?_distrust ..).trans (if_neg hother), ?_⟩
  intro entry hentry
  rw [entry?_distrust, if_pos rfl, Option.map_eq_some_iff] at hentry
  obtain ⟨old, hold, rfl⟩ := hentry
  exact .inr ⟨old, hold, rfl, nofun⟩

theorem remember (device : String) (cache : Cache) {file : StampFile}
    (hversion : file.version = knownVersion) :
    ChangedFor device cache (cache.remember device file) := by
  refine ⟨fun other hother => (entry?_remember ..).trans (if_neg hother), ?_⟩
  intro entry hentry
  rw [entry?_remember, if_pos rfl] at hentry
  cases hentry
  exact .inl hversion

variable {σ : Type} [StampStore σ]

theorem reload (device : String) (cache : Cache) (files : σ) :
    ChangedFor device cache (cache.reload device files).1 := by
  rw [reload_eq]
  cases hfiled : filed? files device with
  | none => exact .refl device cache
  | some file => exact .remember device cache (version_of_filed? hfiled)

theorem set (device : String) (cache : Cache) (version stamp : UInt32) (m : Message)
    (now : Instant) (files : σ) :
    ChangedFor device cache (cache.set device version stamp m now files).2.1 := by
  have hdistrusted := distrust device cache
  cases hcapture : StampFile.capture version stamp m with
  | error error =>
    rw [set_of_error cache device m now hcapture]
    exact hdistrusted
  | ok file =>
    obtain ⟨hversion, rfl⟩ := capture_eq_ok hcapture
    rw [set_of_ok cache device m now hcapture]
    dsimp only
    split
    · exact hdistrusted.trans (.remember device _ hversion)
    · exact hdistrusted

theorem process (device : String) (cache : Cache) (m : Message) (now : Instant) (files : σ) :
    ChangedFor device cache (cache.process device m now files).2.1 := by
  cases huse : m.stampUse with
  | none =>
    rw [process_of_none cache files device m now huse]
    exact .refl device cache
  | set version stamp =>
    rw [process_of_set cache files device m now huse]
    exact .set device cache version stamp m now files
  | apply stamp =>
    rw [process_of_apply cache files device m now huse]
    by_cases hhits : cache.hits device stamp = true
    · rw [apply_of_hits m now hhits]
      exact .refl device cache
    · rw [apply_of_not_hits m now hhits]
      exact .reload device cache files

theorem processInPlace (device : String) (cache : Cache) (m : Message) (now : Instant) (files : σ) :
    ChangedFor device cache (cache.processInPlace device m now files).cache := by
  rw [Cache.cache_processInPlace]
  exact .process device cache m now files

end ChangedFor

/-- Memory has stamps of the known version only, also those that it does not rely on. -/
def OnlyKnown (cache : Cache) : Prop :=
  ∀ device entry, cache.entry? device = some entry → entry.file.version = knownVersion

section Memory

variable {σ : Type} [StampStore σ] {cache : Cache}

theorem OnlyKnown.of_changedFor {device : String} {after : Cache} (h : OnlyKnown cache)
    (hchanged : ChangedFor device cache after) : OnlyKnown after := by
  intro other entry hentry
  by_cases hother : other = device
  · subst hother
    rcases hchanged.source entry hentry with hversion | ⟨old, hold, hfile, -⟩
    · exact hversion
    · rw [← hfile]
      exact h other old hold
  · rw [hchanged.others other hother] at hentry
    exact h other entry hentry

theorem Reached.onlyKnown (h : Reached σ cache) : OnlyKnown cache := by
  induction h with
  | start => exact nofun
  | message h device m now files ih => exact ih.of_changedFor (.processInPlace device _ m now files)

theorem OnlyKnown.version (h : OnlyKnown cache) {device : String} {file : StampFile}
    (hvalid : cache.valid? device = some file) : file.version = knownVersion :=
  h device _ ((valid?_eq_some_iff cache device).mp hvalid)

end Memory

/-! ## The frame -/

/-- The fields that what a stamp stands for is written to, and those of the stamp. -/
def stampFields : List Field :=
  [.latitude, .longitude, .altitude, .capturedAt, .captureDate, .captureTime, .captureOffset,
    .stamp, .stampVersion]

/-- What a message of a device changes, and what it leaves alone. -/
structure Framed {σ : Type} [StampStore σ] (cache : Cache) (device : String) (m : Message)
    (now : Instant) (files : σ) (after : Aftermath (Observed σ)) : Prop where
  /-- A message that is refused stays as it was, and so does memory. It refers to a stamp that
  cannot be used. -/
  refused : ∀ error, after.result = .error error → after.message = m ∧ after.cache = cache
    ∧ ∃ stamp, m.stampUse = .apply stamp ∧ error = .unstampable device stamp
  /-- A message keeps all fields that have nothing to do with stamps. -/
  fields : ∀ f ∉ stampFields, after.message f = m f
  /-- A message that sets a stamp loses the stamp and nothing else. -/
  set : ∀ version stamp, m.stampUse = .set version stamp →
    ∀ f ∉ [Field.stampVersion, .stamp], after.message f = m f
  /-- A message without a stamp changes nothing. -/
  unstamped : after.result = .ok .unstamped →
    after.message = m ∧ after.cache = cache ∧ after.files = ⟨files, []⟩
  /-- Memory keeps what it has of other devices. -/
  entries : ∀ other, other ≠ device → after.cache.entry? other = cache.entry? other
  /-- No file of another device is read or written. -/
  accesses : ∀ access ∈ after.files.accesses, access.device = device
  /-- A message that refers to a stamp writes no file. -/
  reads : ∀ stamp, m.stampUse = .apply stamp → ∀ access ∈ after.files.accesses,
    access = .read device
  /-- Lawful files of other devices hold what they held. -/
  stored : LawfulStampStore σ → ∀ other, other ≠ device →
    stored? after.files.files other = stored? files other
  /-- Memory has stamps of the known version only. -/
  known : ∀ other entry, after.cache.entry? other = some entry → entry.file.version = knownVersion
  /-- No message is refused for the version of a stamp: one that is refused finds none that memory
  relies on. -/
  refused_iff : (∃ error, after.result = .error error)
    ↔ (∃ stamp, m.stampUse = .apply stamp) ∧ after.cache.valid? device = none
  /-- That files are observed does not matter. -/
  unobserved : (⟨after.result, after.message, after.cache, after.files.files⟩ : Aftermath σ)
    = cache.processInPlace device m now files

section Fields

variable {m : Message} {f : Field} (hf : f ∉ stampFields)
include hf

theorem withoutStamp_apply : m.withoutStamp f = m f := by
  refine Message.erase_of_not_mem m fun hmem => hf ?_
  simp only [stampFields, List.mem_cons, List.not_mem_nil, or_false] at hmem ⊢
  tauto

theorem placed_apply (file : StampFile) : placed file m f = m f := by
  simp only [stampFields, List.mem_cons, not_or] at hf
  obtain ⟨hlatitude, hlongitude, haltitude, -⟩ := hf
  exact (Message.update_other _ _ haltitude).trans
    ((Message.update_other _ _ hlongitude).trans (Message.update_other _ _ hlatitude))

theorem restored_apply (file : StampFile) : restored file m f = m f := by
  have hplaced := placed_apply (m := m) hf file
  refine (withoutStamp_apply hf).trans ?_
  simp only [stampFields, List.mem_cons, not_or] at hf
  obtain ⟨-, -, -, hinstant, hdate, htime, -⟩ := hf
  exact (Message.update_other _ _ htime).trans ((Message.update_other _ _ hdate).trans
    ((Message.update_other _ _ hinstant).trans hplaced))

theorem relocated_apply (file : StampFile) (now : Instant) : relocated file m now f = m f := by
  have hplaced := placed_apply (m := m) hf file
  refine (withoutStamp_apply hf).trans ?_
  simp only [stampFields, List.mem_cons, not_or] at hf
  obtain ⟨-, -, -, hinstant, hdate, htime, hoffset, -⟩ := hf
  exact (Message.erase_of_not_mem _ (by simp [hdate, htime, hoffset])).trans
    ((Message.update_other _ _ hinstant).trans hplaced)

end Fields

section Frame

variable {σ : Type} [StampStore σ] {cache : Cache} {device : String} {m : Message} {now : Instant}
  {files : σ}

/-- A message is left as it was, or without its stamp, or with what its stamp stands for. -/
theorem message_processInPlace {f : Field} (hf : f ∉ stampFields) :
    (cache.processInPlace device m now files).message f = m f := by
  rw [Cache.processInPlace_eq]
  obtain ⟨stamp, -, herror⟩ | ⟨outcome, m', hok, hm'⟩ :=
    process_fst_cases cache files device m now
  · generalize cache.process device m now files = processed at herror
    obtain ⟨result, cache', files'⟩ := processed
    cases herror
    rfl
  · generalize cache.process device m now files = processed at hok
    obtain ⟨result, cache', files'⟩ := processed
    cases hok
    rcases hm' with rfl | rfl | ⟨file, rfl | rfl⟩
    · rfl
    · exact withoutStamp_apply hf
    · exact restored_apply hf file
    · exact relocated_apply hf file now

theorem message_of_refused {error : StampError}
    (herror : (cache.processInPlace device m now files).result = .error error) :
    (cache.processInPlace device m now files).message = m := by
  rw [Cache.processInPlace_eq] at herror ⊢
  generalize cache.process device m now files = processed at herror ⊢
  obtain ⟨_ | ⟨outcome, m'⟩, cache', files'⟩ := processed
  · rfl
  · cases herror

/-- Only a message that refers to a stamp is refused. -/
theorem stampUse_of_refused {error : StampError}
    (herror : (cache.processInPlace device m now files).result = .error error) :
    ∃ stamp, m.stampUse = .apply stamp := by
  cases huse : m.stampUse with
  | none => simp [Cache.processInPlace, huse] at herror
  | set version stamp => simp [Cache.processInPlace, huse] at herror
  | apply stamp => exact ⟨stamp, rfl⟩

/-- Only a message without a stamp is left alone. -/
theorem stampUse_of_unstamped
    (hresult : (cache.processInPlace device m now files).result = .ok .unstamped) :
    m.stampUse = .none := by
  cases huse : m.stampUse with
  | none => rfl
  | set version stamp =>
    obtain ⟨persisted, hset⟩ := exists_set_eq cache device m now version stamp files
    simp only [Cache.processInPlace, huse, hset] at hresult
    cases hresult
  | apply stamp =>
    simp only [Cache.processInPlace, huse, Edit.on_applyHeld] at hresult
    generalize Cache.valid? _ device = held at hresult
    cases held with
    | none => cases hresult
    | some file =>
      by_cases hversion : file.version = knownVersion
      · by_cases hstamp : file.stamp = stamp
        · rw [answer_same hversion device m now hstamp] at hresult
          cases hresult
        · rw [answer_other hversion device m now hstamp] at hresult
          cases hresult
      · rw [answer_of_unknown hversion] at hresult
        cases hresult

/-- With stamps of the known version only, a message is refused when there is none to rely on. -/
theorem refused_processInPlace_iff (hknown : OnlyKnown cache) {stamp : UInt32}
    (huse : m.stampUse = .apply stamp) (error : StampError) :
    (cache.processInPlace device m now files).result = .error error
      ↔ (cache.processInPlace device m now files).cache.valid? device = none
        ∧ error = .unstampable device stamp := by
  have hknown' := hknown.of_changedFor (.processInPlace device cache m now files)
  simp only [Cache.processInPlace, huse, Edit.on_applyHeld] at hknown' ⊢
  generalize (if cache.hits device stamp then (cache, files) else cache.reload device files)
    = reloaded at hknown' ⊢
  cases hvalid : reloaded.1.valid? device with
  | none => simp [answer, eq_comm]
  | some file =>
    have hversion := hknown'.version hvalid
    by_cases hstamp : file.stamp = stamp
    · simp [answer_same hversion device m now hstamp]
    · simp [answer_other hversion device m now hstamp]

/-- Memory that relies on no stamp of a device after a message that refers to one has not
changed. -/
theorem cache_processInPlace_of_refused {stamp : UInt32} (huse : m.stampUse = .apply stamp)
    (hvalid : (cache.processInPlace device m now files).cache.valid? device = none) :
    (cache.processInPlace device m now files).cache = cache := by
  simp only [Cache.processInPlace, huse] at hvalid ⊢
  by_cases hhits : cache.hits device stamp = true
  · rw [if_pos hhits]
  · rw [if_neg hhits] at hvalid ⊢
    rw [valid?_reload, if_pos rfl, Option.or_eq_none_iff] at hvalid
    rw [reload_eq, hvalid.1]

theorem stored?_processInPlace [LawfulStampStore σ] {other : String} (hother : other ≠ device) :
    stored? (cache.processInPlace device m now files).files other = stored? files other := by
  cases huse : m.stampUse with
  | none => simp only [Cache.processInPlace, huse]
  | set version stamp =>
    simp only [Cache.processInPlace, huse]
    obtain ⟨file, -, -, -, hstored⟩ | ⟨-, -, hstored⟩ :=
      set_spec cache files device version stamp m now
    · rw [hstored, if_neg hother]
    · exact hstored other
  | apply stamp =>
    simp only [Cache.processInPlace, huse]
    by_cases hhits : cache.hits device stamp = true
    · rw [if_pos hhits]
    · rw [if_neg hhits, reload_eq]
      exact LawfulStampStore.stored?_read files device other

theorem device_of_mem_accessesOf {access : Access} (hmem : access ∈ cache.accessesOf device m) :
    access.device = device := by
  rw [Cache.accessesOf] at hmem
  split at hmem
  · cases hmem
  · split at hmem
    · rw [List.mem_singleton.mp hmem, Access.device]
    · cases hmem
  · split at hmem
    · cases hmem
    · rw [List.mem_singleton.mp hmem, Access.device]

theorem eq_read_of_mem_accessesOf {stamp : UInt32} (huse : m.stampUse = .apply stamp)
    {access : Access} (hmem : access ∈ cache.accessesOf device m) : access = .read device := by
  simp only [Cache.accessesOf, huse] at hmem
  split at hmem
  · cases hmem
  · exact List.mem_singleton.mp hmem

variable (device m now files)

/-- Every message keeps to its frame, whatever messages have come before it and whatever is in the
files. -/
theorem process_framed (hreached : Reached σ cache) :
    Framed cache device m now files
      (cache.processInPlace device m now (⟨files, []⟩ : Observed σ)) := by
  have hknown := hreached.onlyKnown
  have hchanged := ChangedFor.processInPlace device cache m now files
  rw [processInPlace_observed]
  constructor
  case refused =>
    intro error herror
    obtain ⟨stamp, huse⟩ := stampUse_of_refused herror
    obtain ⟨hvalid, herror'⟩ := (refused_processInPlace_iff hknown huse error).mp herror
    exact ⟨message_of_refused herror, cache_processInPlace_of_refused huse hvalid, stamp, huse,
      herror'⟩
  case fields => exact fun f hf => message_processInPlace hf
  case set =>
    intro version stamp huse f hf
    simp only [Cache.processInPlace, huse, Edit.on_stripStamp]
    exact Message.erase_of_not_mem m hf
  case unstamped =>
    intro hresult
    have huse := stampUse_of_unstamped hresult
    simp only [Cache.processInPlace, Cache.accessesOf, huse, List.append_nil, and_self]
  case entries => exact hchanged.others
  case accesses => exact fun access hmem => device_of_mem_accessesOf hmem
  case reads => exact fun stamp huse access hmem => eq_read_of_mem_accessesOf huse hmem
  case stored => exact fun _ other hother => stored?_processInPlace hother
  case known => exact hknown.of_changedFor hchanged
  case refused_iff =>
    constructor
    · rintro ⟨error, herror⟩
      obtain ⟨stamp, huse⟩ := stampUse_of_refused herror
      exact ⟨⟨stamp, huse⟩, ((refused_processInPlace_iff hknown huse error).mp herror).1⟩
    · rintro ⟨⟨stamp, huse⟩, hvalid⟩
      exact ⟨_, (refused_processInPlace_iff hknown huse _).mpr ⟨hvalid, rfl⟩⟩
  case unobserved => rfl

end Frame

/-- A stamp of another version in the file does not help a message whose stamp memory does not rely
on, because the file could not be written. The message stays as it was, and memory does. -/
theorem process_framed_of_distrusted :
    let first := ({} : Cache).processInPlace "d1" settingMessage .epoch (⟨.empty, true⟩ : Disk)
    let second := first.cache.processInPlace "d1" settingMessage .epoch (⟨.empty, false⟩ : Disk)
    let files : Disk := ⟨.entries (.insert .empty "d1.json"
      (.file (StampFile.render ⟨2, 5, none, none, none, none, none⟩) .epoch)), true⟩
    let held := second.cache.entry? "d1"
    let after := second.cache.processInPlace "d1" referringMessage .epoch
      (⟨files, []⟩ : Observed Disk)
    held.map Entry.valid = some false
      ∧ after.result = .error (.unstampable "d1" 5) ∧ after.message = referringMessage
      ∧ after.cache = second.cache ∧ after.files.accesses = [.read "d1"] := by
  intro first second files held after
  have hreached : Reached Disk second.cache := .message (.message .start ..) ..
  have hframed : Framed second.cache "d1" referringMessage .epoch files after :=
    process_framed "d1" referringMessage .epoch files hreached
  have hresult : after.result = .error (.unstampable "d1" 5) := by decide +kernel
  obtain ⟨hmessage, hcache, -⟩ := hframed.refused _ hresult
  exact ⟨by decide +kernel, hresult, hmessage, hcache, by decide +kernel⟩

end Stamp

end FieldTelemetry
