import FieldTelemetry.Proofs.Stamp.Consistency

/-!
# What a collector recalls

A collector that alone uses its folder answers messages that refer to a stamp by the latest stamp
that it has reported stored, whichever of its writes fail and however often it starts again.

## Main definitions

* `Event`, `Collector.run`: messages and restarts, and the collector after them
* `lastPersisted`: the latest stamp of a device that was reported stored

## Main results

* `Collector.Recalls.run`: the files hold the latest stamps that were reported stored
* `Collector.answer_run`: messages are answered by these stamps
-/

namespace FieldTelemetry.Stamp

open Store (Folder)
open Time (Instant)
open Wire (Message)

/-! ## Runs -/

/-- What happens to a collector. -/
inductive Event
  /-- A message of a device comes, while the disk takes new contents or refuses them. -/
  | message (device : String) (m : Message) (now : Instant) (writable : Bool)
  /-- The collector starts again, without what was in memory. -/
  | restart

/-- If a message comes that sets a stamp, its latitude and longitude are read back from their
texts. -/
def Event.StampSurvives : Event → Prop
  | message _ m _ _ => Stamp.StampSurvives m
  | restart => True

/-- A message of a device with its result. -/
structure Report where
  /-- The device. -/
  device : String
  /-- The message. -/
  message : Message
  /-- What became of it. -/
  result : Except StampError (StampOutcome × Message)

/-- The stamp that a report says to be stored for a device. -/
def Report.persisted? (report : Report) (device : String) : Option StampFile :=
  if report.device = device then Stamp.persisted? report.message report.result else none

/-- The latest stamp of a device that was reported stored, among reports with the latest first. -/
def lastPersisted (device : String) (reports : List Report) : Option StampFile :=
  reports.findSome? fun report => report.persisted? device

/-- A collector with its folder and its reports. -/
structure Collector where
  /-- The stamps in memory. -/
  cache : Cache := {}
  /-- The folder of stamp files. -/
  folder : Folder
  /-- The messages with their results, latest first. -/
  reports : List Report := []

namespace Collector

/-- What becomes of a message, of the stamps in memory and of the disk. -/
def process (c : Collector) (device : String) (m : Message) (now : Instant) (writable : Bool) :
    Except StampError (StampOutcome × Message) × Cache × Disk :=
  c.cache.process device m now ⟨c.folder, writable⟩

/-- The collector after an event. -/
def step (c : Collector) : Event → Collector
  | .message device m now writable =>
    let (result, cache, disk) := c.process device m now writable
    ⟨cache, disk.folder, ⟨device, m, result⟩ :: c.reports⟩
  | .restart => { c with cache := {} }

/-- The collector after events. -/
def run (c : Collector) (events : List Event) : Collector := events.foldl step c

/-! ## Files and reports -/

/-- Memory is consistent with the files, and every file holds the latest stamp that was reported
stored. -/
structure Recalls (c : Collector) : Prop where
  /-- Memory relies on no stamp that the files do not hold. -/
  consistent : ∀ device, Consistent c.cache c.folder device
  /-- The files hold what was reported stored. -/
  filed? : ∀ device, filed? c.folder device = lastPersisted device c.reports

theorem recalls_of_nodes_empty {folder : Folder} (h : folder.nodes = .empty) :
    Recalls { folder := folder } := by
  refine ⟨consistent_empty folder, ?_⟩
  intro device
  rw [Stamp.filed?, stored?_folder, Folder.contents?_of_nodes_empty h]
  split <;> rfl

theorem Recalls.step {c : Collector} (h : c.Recalls) {event : Event} (he : event.StampSurvives) :
    (c.step event).Recalls := by
  cases event with
  | restart => exact ⟨consistent_empty c.folder, h.filed?⟩
  | message device m now writable =>
    constructor
    · intro other
      have hdisk : Consistent c.cache (⟨c.folder, writable⟩ : Disk) other := h.consistent other
      exact hdisk.process device m now he
    · intro other
      refine (filed?_process c.cache (⟨c.folder, writable⟩ : Disk) device m now other).trans ?_
      rw [map_reread_persisted? he]
      show _ = lastPersisted other (⟨device, m, (c.process device m now writable).1⟩ :: c.reports)
      rw [lastPersisted, List.findSome?_cons, Report.persisted?, ← lastPersisted]
      -- The report is about the device of the message, and so is the file that changes.
      by_cases hother : other = device
      · subst hother
        rw [if_pos rfl, if_pos rfl, ← h.filed? other, process]
        cases Stamp.persisted? m (c.cache.process other m now (⟨c.folder, writable⟩ : Disk)).1 with
        | none => rfl
        | some file => rfl
      · rw [if_neg hother, if_neg (fun heq => hother heq.symm)]
        exact h.filed? other

/-- The files hold the latest stamps that were reported stored, after any events. -/
theorem Recalls.run {c : Collector} (h : c.Recalls) {events : List Event}
    (he : ∀ event ∈ events, event.StampSurvives) : (c.run events).Recalls := by
  induction events generalizing c with
  | nil => exact h
  | cons event events ih =>
    exact ih (h.step (he event List.mem_cons_self))
      fun later hlater => he later (List.mem_cons_of_mem _ hlater)

/-! ## Answers -/

theorem Recalls.process_eq {c : Collector} (h : c.Recalls) (device : String) {m : Message}
    (now : Instant) (writable : Bool) {stamp : UInt32} (huse : m.stampUse = .apply stamp) :
    (c.process device m now writable).1
      = answer (lastPersisted device c.reports) device stamp m now := by
  have hdisk : Consistent c.cache (⟨c.folder, writable⟩ : Disk) device := h.consistent device
  rw [← h.filed? device]
  exact hdisk.process_apply device m now huse

theorem Recalls.version {c : Collector} (h : c.Recalls) {device : String} {file : StampFile}
    (hlast : lastPersisted device c.reports = some file) : file.version = knownVersion := by
  rw [← h.filed?] at hlast
  exact version_of_filed? hlast

/-- After any messages and restarts over a folder that was empty, a message that refers to a stamp
is refused when no stamp of its device was reported stored. It gets the place and time of the latest
such stamp when that is the one it refers to, and else the place of it. A collector without memory
gives the same answer. -/
theorem answer_run {folder : Folder} (hempty : folder.nodes = .empty) {events : List Event}
    (hevents : ∀ event ∈ events, event.StampSurvives) (device : String) {m : Message}
    (now : Instant) (writable : Bool) {stamp : UInt32} (huse : m.stampUse = .apply stamp) :
    let c := run { folder := folder } events
    let result := (c.process device m now writable).1
    let last := lastPersisted device c.reports
    (result = .error (.unstampable device stamp) ↔ last = none)
      ∧ (∀ file, last = some file → file.stamp = stamp →
          ∃ m', result = .ok (.applied stamp, m') ∧ HasPlaceOf m' file ∧ HasTimeOf m' file)
      ∧ (∀ file, last = some file → file.stamp ≠ stamp →
          ∃ m', result = .ok (.degraded stamp file.stamp, m') ∧ HasPlaceOf m' file)
      ∧ result = (({ c with cache := {} } : Collector).process device m now writable).1 := by
  intro c result last
  -- The answer is that of the file, and the file is known by the reports.
  have hrecalls : c.Recalls := (recalls_of_nodes_empty hempty).run hevents
  have hresult : result = answer last device stamp m now :=
    hrecalls.process_eq device now writable huse
  have happlied : ∀ file, last = some file → file.stamp = stamp →
      result = .ok (.applied stamp, restored file m) := by
    intro file hlast hstamp
    rw [hresult, hlast, answer_same (hrecalls.version hlast) device m now hstamp]
  have hdegraded : ∀ file, last = some file → file.stamp ≠ stamp →
      result = .ok (.degraded stamp file.stamp, relocated file m now) := by
    intro file hlast hstamp
    rw [hresult, hlast, answer_other (hrecalls.version hlast) device m now hstamp]
  refine ⟨⟨?_, ?_⟩, ?_, ?_, ?_⟩
  · intro herror
    cases hlast : last with
    | none => rfl
    | some file =>
      -- With a stamp there is an answer, whichever number it has.
      by_cases hstamp : file.stamp = stamp
      · rw [happlied file hlast hstamp] at herror
        cases herror
      · rw [hdegraded file hlast hstamp] at herror
        cases herror
  · intro hlast
    rw [hresult, hlast]
    rfl
  · intro file hlast hstamp
    exact ⟨_, happlied file hlast hstamp, restored_hasPlaceOf file m, restored_hasTimeOf file m⟩
  · intro file hlast hstamp
    exact ⟨_, hdegraded file hlast hstamp, relocated_hasPlaceOf file m now⟩
  · -- What is in memory only spares a reading of the file.
    have hforgetful : ({ c with cache := {} } : Collector).Recalls :=
      ⟨consistent_empty c.folder, hrecalls.filed?⟩
    rw [hresult, hforgetful.process_eq device now writable huse]

end Collector

/-! ## A restart -/

/-- A message that sets the fifth stamp of a device at a latitude of one and a half. -/
def settingMessage : Message :=
  (((Message.empty.set .latitude (⟨0x3fc00000⟩ : Binary32)).set .captureDate (240131 : UInt32)).set
    .stampVersion (1 : UInt32)).set .stamp (5 : UInt32)

/-- A message that refers to the fifth stamp. -/
def referringMessage : Message := Message.empty.set .stamp (5 : UInt32)

theorem settingMessage_survives : StampSurvives settingMessage := by
  intro stamp _
  constructor
  · rintro x ⟨⟩
    rw [Binary32.survives_iff]
    decide +kernel
  · rintro x ⟨⟩

/-- A stamp that was stored is found again after a restart. -/
theorem answer_run_after_restart :
    ∃ m', ((Collector.run { folder := .empty }
        [.message "d1" settingMessage .epoch true, .restart]).process "d1" referringMessage .epoch
          false).1 = .ok (.applied 5, m')
      ∧ (m' .latitude : Option Binary32) = some ⟨0x3fc00000⟩
      ∧ (m' .captureDate : Option UInt32) = some (240131 : UInt32) := by
  have hevents : ∀ event ∈ [Event.message "d1" settingMessage .epoch true, .restart],
      event.StampSurvives := by
    simp [Event.StampSurvives, settingMessage_survives]
  have hlast : lastPersisted "d1" (Collector.run { folder := .empty }
      [.message "d1" settingMessage .epoch true, .restart]).reports
        = some ⟨1, 5, some ⟨0x3fc00000⟩, none, none, some 240131, none⟩ := by
    decide +kernel
  have huse : referringMessage.stampUse = .apply 5 := by decide
  obtain ⟨m', hresult, hplace, htime⟩ :=
    (Collector.answer_run rfl hevents "d1" .epoch false huse).2.1 _ hlast rfl
  exact ⟨m', hresult, hplace.1, htime.1⟩

end FieldTelemetry.Stamp
