import FieldTelemetry.Proofs.Store.History

/-!
# Values beside their devices

The same readings are merged into the snapshot of a device as they are, and into the snapshot of its
values without what tells how they came. The two stay in lockstep: the values are those of the
device, the remembered changes are the same, and nothing tells how a reading came.

## Main definitions

* `HidesReception`: a record that does not tell how it came
* `Snapshot.Mirrors`: the snapshot of a device and the snapshot of its values in lockstep

## Main results

* `Snapshot.Mirrors.merge`: one reading keeps the lockstep
* `Snapshot.mirrors_mergeAll`: all readings from the empty snapshots on
-/

namespace FieldTelemetry.Store

/-! ## Records -/

/-- The record does not tell how it came. -/
structure HidesReception (record : SensorRecord) : Prop where
  /-- It names no gateway. -/
  gateway : record.gateway = none
  /-- It names no service. -/
  service : record.service = none

theorem hidesReception_withoutReception (record : SensorRecord) :
    HidesReception (withoutReception record) := ⟨rfl, rfl⟩

/-- The values of a category do not tell how they came. -/
theorem hidesReception_project (record : SensorRecord) (category : Category) :
    HidesReception (record.project category) := by
  cases category <;> exact ⟨rfl, rfl⟩

/-- The values of a category do not depend on how they came. -/
theorem project_withoutReception (record : SensorRecord) (category : Category) :
    (withoutReception record).project category = record.project category := by
  cases category <;> rfl

/-- The keys of a record in JSON. -/
def keysOf (record : SensorRecord) : List String :=
  (Json.present (Json.Record.form SensorRecord) (Json.Record.values record)).map Prod.fst

/-- What is written for slots belongs to one of them that has a value. -/
theorem exists_of_mem_present {form : List Json.Slot} {values : List (Option Json)} {key : String}
    (h : key ∈ (Json.present form values).map Prod.fst) :
    ∃ slot value, (slot, some value) ∈ form.zip values ∧ slot.name = key := by
  induction form generalizing values with
  | nil => cases values <;> cases h
  | cons slot form ih =>
    match values, h with
    | none :: values, h =>
      obtain ⟨other, value, hmem, hname⟩ := ih h
      exact ⟨other, value, List.mem_cons_of_mem _ hmem, hname⟩
    | some value :: values, h =>
      rcases List.mem_cons.mp h with rfl | h
      · exact ⟨slot, value, List.mem_cons_self, rfl⟩
      · obtain ⟨other, value, hmem, hname⟩ := ih h
        exact ⟨other, value, List.mem_cons_of_mem _ hmem, hname⟩

/-- A record that does not tell how it came is written without a gateway and a service. -/
theorem HidesReception.not_mem_keysOf {record : SensorRecord} (h : HidesReception record) :
    "gateway" ∉ keysOf record ∧ "service" ∉ keysOf record := by
  have hslots : ∀ p ∈ (Json.Record.form SensorRecord).zip (Json.Record.values record),
      p.2.isSome = true → p.1.name ≠ "gateway" ∧ p.1.name ≠ "service" := by
    simp [Json.Record.form, Json.Record.values, Json.slots, h.gateway, h.service]
  constructor
  · intro hkey
    obtain ⟨slot, value, hmem, hname⟩ := exists_of_mem_present hkey
    exact (hslots _ hmem rfl).1 hname
  · intro hkey
    obtain ⟨slot, value, hmem, hname⟩ := exists_of_mem_present hkey
    exact (hslots _ hmem rfl).2 hname

/-! ## Readings -/

/-- The update as the snapshot of the values takes it. -/
def Update.ofValues (update : Update SensorRecord) : Update SensorRecord :=
  { update with values := EntityKind.value.prepare update.values }

namespace Snapshot

/-- The snapshot of a device and the snapshot of its values are in lockstep. -/
structure Mirrors (device value : Snapshot SensorRecord) : Prop where
  /-- The values are those of the device, but for how they came. -/
  current : value.current = withoutReception device.current
  /-- The same changes are remembered. -/
  history : ∀ category, value.history category = device.history category
  /-- The latest updates came at the same time. -/
  updatedAt : value.updatedAt = device.updatedAt
  /-- No change tells how it came. -/
  hidden : ∀ category, ∀ entry ∈ (value.history category).entries, HidesReception entry.values

variable {device value : Snapshot SensorRecord}

theorem mirrors_empty : Mirrors empty empty where
  current := rfl
  history _ := rfl
  updatedAt := rfl
  hidden category entry hentry := by cases category <;> cases hentry

namespace Mirrors

variable (h : Mirrors device value) (update : Update SensorRecord)
include h

theorem after_transition :
    (value.transition update.ofValues).after
      = withoutReception (device.transition update).after := by
  change Overlay.overlay value.current (withoutReception update.values) = _
  rw [h.current]
  rfl

/-- A reading changes the values of a category as it changes those of the device. -/
theorem changes_transition (category : Category) :
    (value.transition update.ofValues).Changes category
      ↔ (device.transition update).Changes category := by
  have hbefore : (value.transition update.ofValues).before
      = withoutReception (device.transition update).before := h.current
  change Alike.alike (SensorRecord.project _ category) (SensorRecord.project _ category) = false
    ↔ Alike.alike (SensorRecord.project _ category) (SensorRecord.project _ category) = false
  rw [h.after_transition, hbefore, project_withoutReception, project_withoutReception]

theorem entry_transition (id : String) (category : Category) :
    (value.transition update.ofValues).entry id category
      = (device.transition update).entry id category := by
  have hvalues : SensorRecord.project (value.transition update.ofValues).after category
      = SensorRecord.project (device.transition update).after category := by
    rw [h.after_transition, project_withoutReception]
  exact congrArg (HistoryEntry.mk id update.mergedAt) hvalues

/-- A reading is said to change the same categories of both. -/
theorem changes_merge (id : String) :
    (value.merge id update.ofValues.values EntityKind.value.tracked update.mergedAt).2
      = (device.merge id update.values EntityKind.device.tracked update.mergedAt).2 := by
  refine (value.changes_merge id _ update.ofValues).trans
    (Eq.trans ?_ (device.changes_merge id _ update).symm)
  exact List.filter_congr fun category _ => by simp only [h.changes_transition]

/-- A reading keeps the lockstep. -/
theorem merge (id : String) :
    Mirrors (device.merge id update.values EntityKind.device.tracked update.mergedAt).1
      (value.merge id update.ofValues.values EntityKind.value.tracked update.mergedAt).1 := by
  have hvalue := value.history_merge (show EntityKind.value.tracked.Nodup by decide) id
    update.ofValues
  have hdevice := device.history_merge (show EntityKind.device.tracked.Nodup by decide) id update
  refine ⟨h.after_transition update, fun category => ?_, rfl, fun category entry hentry => ?_⟩
  · refine (hvalue category).trans (Eq.trans ?_ (hdevice category).symm)
    simp only [h.changes_transition, h.entry_transition, h.history]
    rfl
  · -- The entry has just been remembered, or it was there before.
    have hentry : entry ∈ _ := hvalue category ▸ hentry
    split at hentry
    · rw [Ring.entries_push] at hentry
      rcases List.mem_cons.mp (List.mem_of_mem_take hentry) with rfl | hentry
      · exact hidesReception_project _ category
      · exact h.hidden category entry hentry
    · exact h.hidden category entry hentry

end Mirrors

/-- All readings keep the lockstep, and each is said to change the same categories of both. -/
theorem mirrors_mergeAll (h : Mirrors device value) (id : String)
    (updates : List (Update SensorRecord)) :
    Mirrors (device.mergeAll id EntityKind.device.tracked updates).1
        (value.mergeAll id EntityKind.value.tracked (updates.map Update.ofValues)).1
      ∧ (value.mergeAll id EntityKind.value.tracked (updates.map Update.ofValues)).2
        = (device.mergeAll id EntityKind.device.tracked updates).2 := by
  induction updates generalizing device value with
  | nil => exact ⟨h, rfl⟩
  | cons update updates ih =>
    obtain ⟨hmirrors, hchanges⟩ := ih (h.merge update id)
    exact ⟨hmirrors, congrArg₂ List.cons (h.changes_merge update id) hchanges⟩

/-- After any readings of an entity, merged from the empty snapshots on, the values are those of the
device without its gateway and its service, the same changes of every category are remembered, every
reading is said to have changed the same categories, and the snapshots were updated at the same
time. Neither the values nor any change have a gateway or a service, and none is written for
them. -/
theorem value_mirrors_device (id : String) (updates : List (Update SensorRecord)) :
    let device := (empty : Snapshot SensorRecord).mergeAll id EntityKind.device.tracked updates
    let value := (empty : Snapshot SensorRecord).mergeAll id EntityKind.value.tracked
      (updates.map fun update => { update with values := EntityKind.value.prepare update.values })
    value.1.current = { device.1.current with gateway := none, service := none }
      ∧ (∀ category, value.1.history category = device.1.history category)
      ∧ value.2 = device.2
      ∧ value.1.updatedAt = device.1.updatedAt
      ∧ ∀ record, (record = value.1.current
            ∨ ∃ category, ∃ entry ∈ (value.1.history category).entries, record = entry.values) →
          (record.gateway = none ∧ record.service = none)
            ∧ "gateway" ∉ keysOf record ∧ "service" ∉ keysOf record := by
  intro device value
  obtain ⟨hmirrors, hchanges⟩ := mirrors_mergeAll mirrors_empty id updates
  refine ⟨hmirrors.current, hmirrors.history, hchanges, hmirrors.updatedAt, ?_⟩
  intro record hrecord
  have hhidden : HidesReception record := by
    rcases hrecord with rfl | ⟨category, entry, hentry, rfl⟩
    · exact hmirrors.current ▸ hidesReception_withoutReception _
    · exact hmirrors.hidden category entry hentry
  exact ⟨⟨hhidden.gateway, hhidden.service⟩, hhidden.not_mem_keysOf⟩

end Snapshot

end FieldTelemetry.Store
