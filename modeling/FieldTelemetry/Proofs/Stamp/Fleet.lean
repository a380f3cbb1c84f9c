import FieldTelemetry.Proofs.Stamp.Recall

/-!
# Stamps of a fleet

Several collectors share the stamp files. Each of them relies on the stamp that it took in last and
reads the file of a device only when a message refers to another stamp, so a stamp that another
collector has set since goes unnoticed when memory holds one with the number of the message.

## Main definitions

* `Fleet`, `Fleet.run`: collectors with common files, and the fleet after messages
* `latest`: the stamp of a device that was set last anywhere in the fleet
* `latestRead`: the stamp that is read from the file of a device
* `held`: the stamp of a device that a collector took in last

## Main results

* `Fleet.Tracks.run`: files hold the latest stamps, and memories those taken in last
* `Fleet.applied_run`: the place and time that a message gets, and when they are the latest ones
-/

namespace FieldTelemetry.Stamp

open Json (reread)
open Store (Folder)
open Time (Instant)
open Wire (Message)

/-! ## Runs -/

/-- A message that a collector of a fleet has processed. -/
structure Visit (ι : Type) extends Report where
  /-- The collector. -/
  collector : ι

/-- A message of a device that comes to a collector of a fleet. -/
structure Arrival (ι : Type) where
  /-- The collector. -/
  collector : ι
  /-- The device. -/
  device : String
  /-- The message. -/
  message : Message
  /-- When it comes. -/
  now : Instant

/-- Collectors with the files that they share. -/
structure Fleet (ι σ : Type) where
  /-- The stamps in the memory of every collector. -/
  caches : ι → Cache := fun _ => {}
  /-- The files. -/
  state : σ
  /-- The messages with their results, latest first. -/
  visits : List (Visit ι) := []

namespace Fleet

variable {ι : Type} [DecidableEq ι] {σ : Type} [StampStore σ]

/-- What becomes of a message, of the memory of its collector and of the files. -/
def process (fleet : Fleet ι σ) (a : Arrival ι) :
    Except StampError (StampOutcome × Message) × Cache × σ :=
  (fleet.caches a.collector).process a.device a.message a.now fleet.state

/-- The visit of a message. -/
def visit (fleet : Fleet ι σ) (a : Arrival ι) : Visit ι :=
  ⟨⟨a.device, a.message, (fleet.process a).1⟩, a.collector⟩

/-- The fleet after a message. -/
def step (fleet : Fleet ι σ) (a : Arrival ι) : Fleet ι σ :=
  let (_, cache, state) := fleet.process a
  ⟨Function.update fleet.caches a.collector cache, state, fleet.visit a :: fleet.visits⟩

/-- The fleet after messages. -/
def run (fleet : Fleet ι σ) (arrivals : List (Arrival ι)) : Fleet ι σ := arrivals.foldl step fleet

end Fleet

/-! ## Stamps in memory and in files -/

namespace StampFile

/-- A stamp goes back to another one: it is that one, or what is read from the text of it. -/
def GoesBackTo (file origin : StampFile) : Prop := file = origin ∨ file = reread origin

theorem GoesBackTo.stamp_eq {file origin : StampFile} (h : file.GoesBackTo origin) :
    file.stamp = origin.stamp := by
  rcases h with rfl | rfl <;> rfl

theorem GoesBackTo.version_eq {file origin : StampFile} (h : file.GoesBackTo origin) :
    file.version = origin.version := by
  rcases h with rfl | rfl <;> rfl

/-- Two stamps stand for the same place and the same date and time of day. -/
def Concurs (file other : StampFile) : Prop :=
  (file.latitude = other.latitude ∧ file.longitude = other.longitude
      ∧ file.altitude = other.altitude)
    ∧ file.captureDate = other.captureDate ∧ file.captureTime = other.captureTime

/-- A message with the place and time of one stamp has those of another when both stamps stand for
the same. -/
theorem concurs_iff {m : Message} {file : StampFile} (hplace : HasPlaceOf m file)
    (htime : HasTimeOf m file) (other : StampFile) :
    HasPlaceOf m other ∧ HasTimeOf m other ↔ file.Concurs other := by
  obtain ⟨hlat, hlon, halt⟩ := hplace
  obtain ⟨hdate, hday⟩ := htime
  rw [HasPlaceOf, HasTimeOf, hlat, hlon, halt, hdate, hday]
  exact Iff.rfl

end StampFile

/-! ## What has been set and taken in -/

section History

variable {ι : Type} [DecidableEq ι] {σ : Type} [StampStore σ]

/-- The stamp that a visit has set for a device. -/
def Visit.sets? (visit : Visit ι) (device : String) : Option StampFile :=
  if visit.device = device then
    match visit.message.stampUse with
    | .set version stamp => (StampFile.capture version stamp visit.message).toOption
    | _ => none
  else none

/-- What was done to the message of a visit. -/
def Visit.outcome? (visit : Visit ι) : Option StampOutcome := visit.result.toOption.map Prod.fst

/-- If a visit has set a stamp of the known version, it was stored. -/
def Visit.Stored (visit : Visit ι) : Prop :=
  match visit.message.stampUse with
  | .set version stamp => version = knownVersion → visit.outcome? = some (.set stamp true)
  | _ => True

instance (visit : Visit ι) : Decidable visit.Stored := by
  unfold Visit.Stored
  split <;> infer_instance

/-- The stamp of a device that was set last anywhere in the fleet, or else the one that its file
held at the start. -/
def latest (start : σ) (device : String) (visits : List (Visit ι)) : Option StampFile :=
  (visits.findSome? fun visit => visit.sets? device).or (filed? start device)

/-- The stamp that is read from the file of a device: the one that was set last anywhere in the
fleet, as it is read from its text, or else the one that the file held at the start. -/
def latestRead (start : σ) (device : String) (visits : List (Visit ι)) : Option StampFile :=
  ((visits.findSome? fun visit => visit.sets? device).map reread).or (filed? start device)

/-- The stamp of a device that a collector took in last and still relies on: the one that it has
set, or the one in the file at the time when a message referred to another one than it had. -/
def held (start : σ) (collector : ι) (device : String) : List (Visit ι) → Option StampFile
  | [] => none
  | visit :: earlier =>
    if visit.device = device ∧ visit.collector = collector then
      match visit.message.stampUse with
      | .none => held start collector device earlier
      | .set version stamp => (StampFile.capture version stamp visit.message).toOption
      | .apply stamp =>
        if (held start collector device earlier).any (·.stamp == stamp) then
          held start collector device earlier
        else latestRead start device earlier
    else held start collector device earlier

/-- The stamp by which a collector answers a message that refers to one: the one that it relies on
when the message refers to it, and else the one in the file. -/
def relied (start : σ) (collector : ι) (device : String) (stamp : UInt32)
    (visits : List (Visit ι)) : Option StampFile :=
  if (held start collector device visits).any (·.stamp == stamp) then
    held start collector device visits
  else latestRead start device visits

/-- A stamp of a device that was set by a visit, or was in its file at the start. -/
def Known (start : σ) (device : String) (visits : List (Visit ι)) (file : StampFile) : Prop :=
  (∃ visit ∈ visits, visit.sets? device = some file) ∨ filed? start device = some file

variable {start : σ} {collector : ι} {device : String} (visit : Visit ι)
  {earlier : List (Visit ι)}

omit [DecidableEq ι] in
theorem result_of_stored {visit : Visit ι} (h : visit.Stored) {stamp : UInt32}
    (huse : visit.message.stampUse = .set knownVersion stamp) :
    ∃ m, visit.result = .ok (.set stamp true, m) := by
  rw [Visit.Stored, huse] at h
  have houtcome := h rfl
  rw [Visit.outcome?] at houtcome
  cases hresult : visit.result with
  | error _ =>
    rw [hresult] at houtcome
    cases houtcome
  | ok answer =>
    obtain ⟨outcome, m⟩ := answer
    rw [hresult] at houtcome
    cases houtcome
    exact ⟨m, rfl⟩

omit [DecidableEq ι] in
theorem latestRead_cons : latestRead start device (visit :: earlier)
    = ((visit.sets? device).map reread).or (latestRead start device earlier) := by
  rw [latestRead, List.findSome?_cons]
  cases visit.sets? device with
  | none => rfl
  | some file => rfl

omit [DecidableEq ι] in
theorem sets?_of_set (hdevice : visit.device = device) {version stamp : UInt32}
    (huse : visit.message.stampUse = .set version stamp) :
    visit.sets? device = (StampFile.capture version stamp visit.message).toOption := by
  rw [Visit.sets?, if_pos hdevice, huse]

theorem held_of_other (h : ¬ (visit.device = device ∧ visit.collector = collector)) :
    held start collector device (visit :: earlier) = held start collector device earlier := by
  rw [held, if_neg h]

theorem held_of_none (huse : visit.message.stampUse = .none) :
    held start collector device (visit :: earlier) = held start collector device earlier := by
  rw [held, huse]
  split <;> rfl

theorem held_of_set (h : visit.device = device ∧ visit.collector = collector)
    {version stamp : UInt32} (huse : visit.message.stampUse = .set version stamp) :
    held start collector device (visit :: earlier)
      = (StampFile.capture version stamp visit.message).toOption := by
  rw [held, if_pos h, huse]

theorem held_of_apply (h : visit.device = device ∧ visit.collector = collector)
    {stamp : UInt32} (huse : visit.message.stampUse = .apply stamp) :
    held start collector device (visit :: earlier)
      = if (held start collector device earlier).any (·.stamp == stamp) then
          held start collector device earlier
        else latestRead start device earlier := by
  rw [held, if_pos h, huse]

omit [DecidableEq ι] in
theorem Known.cons {file : StampFile} (h : Known start device earlier file) :
    Known start device (visit :: earlier) file := by
  rcases h with ⟨v, hv, hset⟩ | hfiled
  · exact .inl ⟨v, List.mem_cons_of_mem _ hv, hset⟩
  · exact .inr hfiled

omit [DecidableEq ι] in
/-- The stamp in a file goes back to one that a visit has set, or that was there at the start. -/
theorem known_of_latestRead {visits : List (Visit ι)} {file : StampFile}
    (h : latestRead start device visits = some file) :
    ∃ origin, Known start device visits origin ∧ file.GoesBackTo origin := by
  rw [latestRead, Option.or_eq_some_iff] at h
  rcases h with hread | ⟨-, hfiled⟩
  · obtain ⟨origin, hset, rfl⟩ := Option.map_eq_some_iff.mp hread
    exact ⟨origin, .inl (List.exists_of_findSome?_eq_some hset), .inr rfl⟩
  · exact ⟨file, .inr hfiled, .inl rfl⟩

/-- A stamp that a collector relies on goes back to one that was set by a visit, or was in the file
at the start. -/
theorem known_of_held {visits : List (Visit ι)} {file : StampFile}
    (h : held start collector device visits = some file) :
    ∃ origin, Known start device visits origin ∧ file.GoesBackTo origin := by
  induction visits with
  | nil => cases h
  | cons visit earlier ih =>
    -- What was known before is known now.
    have hmore : ∀ {file : StampFile},
        (∃ origin, Known start device earlier origin ∧ file.GoesBackTo origin) →
        ∃ origin, Known start device (visit :: earlier) origin ∧ file.GoesBackTo origin :=
      fun ⟨origin, hknown, hback⟩ => ⟨origin, hknown.cons visit, hback⟩
    by_cases hself : visit.device = device ∧ visit.collector = collector
    · cases huse : visit.message.stampUse with
      | none =>
        rw [held_of_none _ huse] at h
        exact hmore (ih h)
      | set version stamp =>
        rw [held_of_set _ hself huse] at h
        exact ⟨file, .inl ⟨visit, List.mem_cons_self, (sets?_of_set _ hself.1 huse).trans h⟩,
          .inl rfl⟩
      | apply stamp =>
        rw [held_of_apply _ hself huse] at h
        -- The collector goes on with the stamp that it had, or takes in the one of the file.
        split at h
        · exact hmore (ih h)
        · exact hmore (known_of_latestRead h)
    · rw [held_of_other _ hself] at h
      exact hmore (ih h)

/-- The stamp in memory comes before the one in the file. -/
theorem relied_eq (stamp : UInt32) (visits : List (Visit ι)) :
    relied start collector device stamp visits
      = ((held start collector device visits).filter (·.stamp == stamp)).or
          (latestRead start device visits) := by
  rw [relied]
  cases held start collector device visits with
  | none => rfl
  | some file =>
    rw [Option.any_some, Option.filter_some]
    split <;> rfl

theorem known_of_relied {stamp : UInt32} {visits : List (Visit ι)} {file : StampFile}
    (h : relied start collector device stamp visits = some file) :
    ∃ origin, Known start device visits origin ∧ file.GoesBackTo origin := by
  rw [relied] at h
  split at h
  · exact known_of_held h
  · exact known_of_latestRead h

omit [DecidableEq ι] in
/-- There is a latest stamp when one is known. -/
theorem Known.exists_latest {visits : List (Visit ι)} {file : StampFile}
    (h : Known start device visits file) : ∃ last, latest start device visits = some last := by
  rw [← Option.isSome_iff_exists, latest, Option.isSome_or, Bool.or_eq_true]
  rcases h with ⟨visit, hvisit, hset⟩ | hfiled
  · exact .inl (List.findSome?_isSome_iff.mpr ⟨visit, hvisit, hset ▸ rfl⟩)
  · exact .inr (hfiled ▸ rfl)

omit [DecidableEq ι] in
/-- The stamp in a file goes back to the latest one. -/
theorem latestRead_of_latest {visits : List (Visit ι)} {last : StampFile}
    (h : latest start device visits = some last) :
    ∃ file, latestRead start device visits = some file ∧ file.GoesBackTo last := by
  rw [latest, Option.or_eq_some_iff] at h
  rw [latestRead]
  rcases h with hset | ⟨hnone, hfiled⟩
  · rw [hset]
    exact ⟨reread last, rfl, .inr rfl⟩
  · rw [hnone]
    exact ⟨last, hfiled, .inl rfl⟩

/-- A collector that relies on a stamp of a device finds one in the file of the device. -/
theorem latestRead_or_held (visits : List (Visit ι)) :
    (latestRead start device visits).or (held start collector device visits)
      = latestRead start device visits := by
  cases hheld : held start collector device visits with
  | none => exact Option.or_none
  | some file =>
    -- A stamp that a collector holds was set or filed, so there is one in the file.
    obtain ⟨origin, hknown, -⟩ := known_of_held hheld
    obtain ⟨last, hlast⟩ := hknown.exists_latest
    obtain ⟨found, hfound, -⟩ := latestRead_of_latest hlast
    rw [hfound]
    rfl

end History

/-! ## Memories and files of a fleet -/

namespace Fleet

variable {ι : Type} [DecidableEq ι] {σ : Type} [StampStore σ] {start : σ}

/-- Every collector relies on the stamp that it took in last, and every file holds the stamp that
was set last. -/
structure Tracks (start : σ) (fleet : Fleet ι σ) : Prop where
  /-- Memories hold what was taken in. -/
  valid? : ∀ collector device,
    (fleet.caches collector).valid? device = held start collector device fleet.visits
  /-- Files hold what was set. -/
  filed? : ∀ device, filed? fleet.state device = latestRead start device fleet.visits

theorem tracks_start (start : σ) : Tracks start ({ state := start } : Fleet ι σ) :=
  ⟨fun _ _ => rfl, fun _ => rfl⟩

theorem Tracks.hits_eq {fleet : Fleet ι σ} (h : fleet.Tracks start) (collector : ι)
    (device : String) (stamp : UInt32) :
    (fleet.caches collector).hits device stamp
      = (held start collector device fleet.visits).any (·.stamp == stamp) := by
  rw [Cache.hits, h.valid?]

/-- A collector answers a message that refers to a stamp by the one that it relies on when it is
that one, and else by the one in the file. -/
theorem Tracks.process_eq {fleet : Fleet ι σ} (h : fleet.Tracks start) {a : Arrival ι}
    {stamp : UInt32} (huse : a.message.stampUse = .apply stamp) :
    (fleet.process a).1
      = answer (relied start a.collector a.device stamp fleet.visits) a.device stamp a.message
          a.now := by
  have hvalid := h.valid? a.collector a.device
  have hhits := h.hits_eq a.collector a.device stamp
  rw [process, process_of_apply _ _ _ _ _ huse, relied]
  by_cases hany : (held start a.collector a.device fleet.visits).any (·.stamp == stamp) = true
  · rw [apply_of_hits _ _ (hhits.trans hany), if_pos hany, hvalid]
  · rw [apply_of_not_hits _ _ (by rwa [hhits]), if_neg hany, valid?_reload, if_pos rfl, hvalid,
      h.filed?, latestRead_or_held]

section Step

variable [LawfulStampStore σ]

omit [LawfulStampStore σ] in
/-- What the collector relies on for a device after a message of it that refers to a stamp. -/
theorem Tracks.valid?_process_of_apply {fleet : Fleet ι σ} (h : fleet.Tracks start) (a : Arrival ι)
    {stamp : UInt32} (huse : a.message.stampUse = .apply stamp) :
    (fleet.process a).2.1.valid? a.device
      = held start a.collector a.device (fleet.visit a :: fleet.visits) := by
  have hself : (fleet.visit a).device = a.device ∧ (fleet.visit a).collector = a.collector :=
    ⟨rfl, rfl⟩
  rw [process, process_of_apply _ _ _ _ _ huse, held_of_apply _ hself huse, ← h.hits_eq]
  by_cases hany : (fleet.caches a.collector).hits a.device stamp = true
  · rw [apply_of_hits _ _ hany, if_pos hany]
    exact h.valid? a.collector a.device
  · -- The file is read again, and it holds a stamp if there is any.
    rw [apply_of_not_hits _ _ hany, if_neg hany, valid?_reload, if_pos rfl, h.valid?, h.filed?,
      latestRead_or_held]

/-- What the collector relies on for a device after a message of it that sets a stamp, if it was
stored. -/
theorem Tracks.valid?_process_of_set {fleet : Fleet ι σ} (a : Arrival ι)
    (hstored : (fleet.visit a).Stored) {version stamp : UInt32}
    (huse : a.message.stampUse = .set version stamp) :
    (fleet.process a).2.1.valid? a.device
      = held start a.collector a.device (fleet.visit a :: fleet.visits) := by
  have hself : (fleet.visit a).device = a.device ∧ (fleet.visit a).collector = a.collector :=
    ⟨rfl, rfl⟩
  have hprocess : fleet.process a = _ := process_of_set _ _ _ _ _ huse
  rw [congrArg (·.2.1) hprocess, held_of_set _ hself huse]
  show _ = (StampFile.capture version stamp a.message).toOption
  obtain ⟨file, hcapture, -, hcache, -⟩ | ⟨houtcome, hcache, -⟩ := set_spec
    (fleet.caches a.collector) fleet.state a.device version stamp a.message a.now
  · rw [hcache, Cache.valid?_remember, if_pos rfl, hcapture]
    rfl
  · rw [hcache, Cache.valid?_distrust, if_pos rfl]
    cases hcapture : StampFile.capture version stamp a.message with
    | error _ => rfl
    | ok file =>
      -- What could be captured has the known version, so it was stored.
      obtain ⟨rfl, -⟩ := capture_eq_ok hcapture
      obtain ⟨m, hresult⟩ := result_of_stored hstored huse
      have hresult' : (fleet.process a).1 = .ok (.set stamp true, m) := hresult
      rw [hprocess, houtcome] at hresult'
      cases hresult'

/-- What the collector relies on after a message, if what it sets was stored. -/
theorem Tracks.valid?_process {fleet : Fleet ι σ} (h : fleet.Tracks start) (a : Arrival ι)
    (hstored : (fleet.visit a).Stored) (device : String) :
    (fleet.process a).2.1.valid? device
      = held start a.collector device (fleet.visit a :: fleet.visits) := by
  by_cases hdevice : device = a.device
  · subst hdevice
    cases huse : a.message.stampUse with
    | none =>
      rw [held_of_none (fleet.visit a) huse, process, process_of_none _ _ _ _ _ huse]
      exact h.valid? a.collector a.device
    | apply stamp => exact h.valid?_process_of_apply a huse
    | set version stamp => exact valid?_process_of_set a hstored huse
  · -- The stamps of other devices are not touched.
    rw [held_of_other (fleet.visit a) (fun hself => hdevice hself.1.symm), process,
      valid?_process_of_ne _ _ _ _ _ hdevice]
    exact h.valid? a.collector device

omit [DecidableEq ι] in
/-- What a visit has set is what it was reported to have stored. -/
theorem persisted?_eq_sets? {visit : Visit ι} (hstored : visit.Stored) (device : String) :
    visit.persisted? device = visit.sets? device := by
  rw [Report.persisted?, Visit.sets?]
  by_cases hdevice : visit.device = device
  · rw [if_pos hdevice, if_pos hdevice]
    cases huse : visit.message.stampUse with
    | none => exact persisted?_of_not_set (by simp [huse]) _
    | apply stamp => exact persisted?_of_not_set (by simp [huse]) _
    | set version stamp =>
      by_cases hversion : version = knownVersion
      · subst hversion
        obtain ⟨m, hresult⟩ := result_of_stored hstored huse
        rw [hresult, persisted?_set huse, if_pos rfl]
      · -- A stamp of another version is not captured, and nothing is stored.
        have hcapture : (StampFile.capture version stamp visit.message).toOption = none := by
          rw [StampFile.capture, if_neg hversion]
          rfl
        dsimp only
        rw [hcapture]
        unfold Stamp.persisted?
        rw [huse]
        split
        · rename_i heq _
          cases heq
          exact hcapture
        · rfl
  · rw [if_neg hdevice, if_neg hdevice]

theorem Tracks.step {fleet : Fleet ι σ} (h : fleet.Tracks start) (a : Arrival ι)
    (hstored : (fleet.visit a).Stored) : (fleet.step a).Tracks start := by
  constructor
  · intro collector device
    show (Function.update fleet.caches a.collector (fleet.process a).2.1 collector).valid? device
      = _
    -- Only the memory of the collector that got the message changes.
    by_cases hcollector : collector = a.collector
    · subst hcollector
      rw [Function.update_self]
      exact h.valid?_process a hstored device
    · rw [Function.update_of_ne hcollector]
      refine (h.valid? collector device).trans (held_of_other _ ?_).symm
      exact fun hself => hcollector hself.2.symm
  · intro device
    refine (filed?_process (fleet.caches a.collector) fleet.state a.device a.message a.now
      device).trans ?_
    refine Eq.trans ?_ (latestRead_cons _).symm
    rw [← persisted?_eq_sets? hstored, Report.persisted?]
    -- Only the file of the device of the message changes.
    by_cases hdevice : device = a.device
    · subst hdevice
      have hself : (fleet.visit a).device = a.device := rfl
      rw [if_pos rfl, if_pos hself, h.filed?]
      rfl
    · have hother : ¬ (fleet.visit a).device = device := fun heq => hdevice heq.symm
      rw [if_neg hdevice, if_neg hother, h.filed?]
      rfl

omit [LawfulStampStore σ] in
theorem visits_run (fleet : Fleet ι σ) (arrivals : List (Arrival ι)) :
    fleet.visits <:+ (fleet.run arrivals).visits := by
  induction arrivals generalizing fleet with
  | nil => exact List.suffix_rfl
  | cons a arrivals ih => exact (List.suffix_cons _ _).trans (ih (fleet.step a))

/-- Files hold the latest stamps and memories those taken in last, after any messages of which every
stamp was stored. -/
theorem Tracks.run {fleet : Fleet ι σ} (h : fleet.Tracks start) {arrivals : List (Arrival ι)}
    (hstored : ∀ visit ∈ (fleet.run arrivals).visits, visit.Stored) :
    (fleet.run arrivals).Tracks start := by
  induction arrivals generalizing fleet with
  | nil => exact h
  | cons a arrivals ih =>
    -- The visit of the first message is among those that the hypothesis speaks of.
    refine ih (h.step a ?_) hstored
    refine hstored _ ((visits_run (fleet.step a) arrivals).subset ?_)
    exact List.mem_cons_self

end Step

/-! ## Places and times that messages get -/

omit [DecidableEq ι] in
/-- A stamp of a device that a visit has set or that its file held at the start has the known
version. -/
theorem version_of_known {device : String} {visits : List (Visit ι)} {file : StampFile}
    (h : Known start device visits file) : file.version = knownVersion := by
  rcases h with ⟨visit, -, hset⟩ | hfiled
  · rw [Visit.sets?] at hset
    split at hset
    · split at hset
      · rename_i version stamp _
        cases hcapture : StampFile.capture version stamp visit.message with
        | error _ =>
          rw [hcapture] at hset
          cases hset
        | ok captured =>
          rw [hcapture] at hset
          cases hset
          obtain ⟨hversion, rfl⟩ := capture_eq_ok hcapture
          exact hversion
      · cases hset
    · cases hset
  · exact version_of_filed? hfiled

/-- After any messages of which every stamp was stored, a message that gets the place and time of
its stamp gets those of the stamp that its collector took in last, when that has the number, and
else those of the stamp in the file of its device. These are the place and time of the stamp that
was set last anywhere in the fleet if and only if the one in memory with the number stands for the
same, and the one in the file does when memory has none with the number. They go back to that stamp
when no other one of the device has the number. -/
theorem applied_run [LawfulStampStore σ] {arrivals : List (Arrival ι)}
    (hstored : ∀ visit ∈ (run { state := start } arrivals).visits, visit.Stored) {a : Arrival ι}
    {stamp : UInt32} (huse : a.message.stampUse = .apply stamp) {m' : Message}
    (happlied : ((run { state := start } arrivals).process a).1 = .ok (.applied stamp, m')) :
    let visits := (run { state := start } arrivals).visits
    let own := (held start a.collector a.device visits).filter (·.stamp == stamp)
    ∃ file last, relied start a.collector a.device stamp visits = some file ∧ file.stamp = stamp
      ∧ HasPlaceOf m' file ∧ HasTimeOf m' file
      ∧ latest start a.device visits = some last
      ∧ (HasPlaceOf m' last ∧ HasTimeOf m' last
        ↔ (∀ kept ∈ own, kept.Concurs last)
          ∧ (own = none → ∀ found ∈ latestRead start a.device visits, found.Concurs last))
      ∧ ((∀ other, Known start a.device visits other → other.stamp = stamp → other = last) →
        file.GoesBackTo last) := by
  intro visits own
  have htracks := (tracks_start (ι := ι) start).run hstored
  rw [htracks.process_eq huse] at happlied
  cases hrelied : relied start a.collector a.device stamp visits with
  | none =>
    rw [hrelied] at happlied
    cases happlied
  | some file =>
    obtain ⟨origin, hknown, hback⟩ := known_of_relied hrelied
    obtain ⟨last, hlast⟩ := hknown.exists_latest
    have hversion : file.version = knownVersion := hback.version_eq.trans (version_of_known hknown)
    rw [hrelied] at happlied
    -- An answer that the stamp was applied rules out an approximation by another stamp.
    by_cases hstamp : file.stamp = stamp
    · rw [answer_same hversion _ _ _ hstamp] at happlied
      cases happlied
      have hplace := restored_hasPlaceOf file a.message
      have htime := restored_hasTimeOf file a.message
      refine ⟨file, last, rfl, hstamp, hplace, htime, hlast, ?_, ?_⟩
      · rw [StampFile.concurs_iff hplace htime]
        rw [relied_eq] at hrelied
        change own.or _ = some file at hrelied
        cases hown : own with
        | some kept =>
          rw [hown] at hrelied
          cases hrelied
          simp
        | none =>
          rw [hown, Option.none_or] at hrelied
          rw [hrelied]
          simp
      · intro hunique
        rw [← hunique origin hknown (hback.stamp_eq.symm.trans hstamp)]
        exact hback
    · rw [answer_other hversion _ _ _ hstamp] at happlied
      cases happlied

end Fleet

/-! ## A number that is given to two stamps -/

/-- A message that sets another fifth stamp, at a latitude of two and a half. -/
def resettingMessage : Message := settingMessage.set .latitude (⟨0x40200000⟩ : Binary32)

/-- A stamp that one of two collectors has taken in, and another of the same number that the other
one has. -/
def reusedStamp : List (Arrival Bool) :=
  [⟨false, "d1", settingMessage, .epoch⟩, ⟨true, "d1", resettingMessage, .epoch⟩]

/-- The first collector goes on with the stamp that it has taken in itself, although another one was
stored since. -/
theorem reusedStamp_not_latest :
    (∀ visit ∈ (Fleet.run { state := Folder.empty } reusedStamp).visits, visit.Stored)
      ∧ ((Fleet.run { state := Folder.empty } reusedStamp).process
          ⟨false, "d1", referringMessage, .epoch⟩).1.toOption.map
            (fun (outcome, m) => (outcome, (m .latitude : Option Binary32)))
        = some (.applied 5, some ⟨0x3fc00000⟩)
      ∧ (latest Folder.empty "d1" (Fleet.run { state := Folder.empty } reusedStamp).visits).map
          (·.latitude) = some (some ⟨0x40200000⟩) := by
  refine ⟨?_, ?_, ?_⟩
  · decide +kernel
  · decide +kernel
  · decide +kernel

/-- The second collector goes on with the latest stamp, which it has taken in itself. -/
theorem applied_run_second :
    ∃ m', ((Fleet.run { state := Folder.empty } reusedStamp).process
        ⟨true, "d1", referringMessage, .epoch⟩).1 = .ok (.applied 5, m')
      ∧ (m' .latitude : Option Binary32) = some ⟨0x40200000⟩ := by
  have hstored : ∀ visit ∈ (Fleet.run { state := Folder.empty } reusedStamp).visits,
      visit.Stored := by
    decide +kernel
  have hrelied : relied Folder.empty true "d1" 5
      (Fleet.run { state := Folder.empty } reusedStamp).visits
        = some ⟨1, 5, some ⟨0x40200000⟩, none, none, some 240131, none⟩ := by
    decide +kernel
  have huse : referringMessage.stampUse = .apply 5 := by decide
  have happlied : ((Fleet.run { state := Folder.empty } reusedStamp).process
      ⟨true, "d1", referringMessage, .epoch⟩).1 = .ok (.applied 5,
        restored ⟨1, 5, some ⟨0x40200000⟩, none, none, some 240131, none⟩ referringMessage) := by
    decide +kernel
  obtain ⟨file, last, hfile, -, hplace, -⟩ :=
    Fleet.applied_run (a := ⟨true, "d1", referringMessage, .epoch⟩) hstored huse happlied
  refine ⟨_, happlied, hplace.1.trans ?_⟩
  rw [hrelied] at hfile
  cases hfile
  rfl

end FieldTelemetry.Stamp
