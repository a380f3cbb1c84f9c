import FieldTelemetry.Proofs.Record.Counters
import FieldTelemetry.Proofs.Record.Overlay
import FieldTelemetry.Store.Snapshot

/-!
# Snapshots read back

A snapshot is read back from its contents when its numbers survive and nothing of its states is left
unwritten. What has been read, and what an update makes of it, is such a snapshot again.

## Main definitions

* `Lasts`: a record that is read back as it was
* `Lasting`: the states whose updates and categories last when they do

## Main results

* `Snapshot.ofOctets?_render`: a snapshot from its contents
* `Snapshot.complete_of_ofOctets?`: what has been read was all written
-/

namespace FieldTelemetry

open Json (Lossless KeptSlot Fits keptSlot_single keptSlot_int32 keptSlot_text keptSlot_instant
  keptSlot_record kept_record kept_text kept_instant kept_items mem_of_readAll? required?_some)
open Json.Lossless (numbers Complete height optionNumbers)

namespace Store

/-! ## States -/

instance : Lossless GatewayStatus where
  numbers x := [x.lat, x.lon, x.snr].reduceOption
  Complete _ := True
  height := 0
  nodup := by decide
  length_values _ := rfl
  fits x h _ value hvalue := by
    have hall : List.Forall (Json.Fits 0) (Json.Record.values x) :=
      ⟨(keptSlot_single h (by simp)).fits le_rfl, (keptSlot_single h (by simp)).fits le_rfl,
        (keptSlot_int32 _).fits le_rfl, (keptSlot_text _).fits le_rfl,
        (keptSlot_single h (by simp)).fits le_rfl, (keptSlot_text _).fits le_rfl,
        (keptSlot_instant _).fits le_rfl⟩
    exact List.forall_iff_forall_mem.mp hall value hvalue
  ofValues?_values x h _ := by
    simp only [Json.Record.values, Json.Record.ofValues?,
      (keptSlot_single h (x := x.lat) (by simp)).optional?,
      (keptSlot_single h (x := x.lon) (by simp)).optional?, (keptSlot_int32 _).optional?,
      (keptSlot_text _).optional?, (keptSlot_single h (x := x.snr) (by simp)).optional?,
      (keptSlot_instant _).optional?]
    rfl
  complete_of_ofValues? _ _ _ := trivial

instance : Lossless ServerStatus where
  numbers _ := []
  Complete _ := True
  height := 1
  nodup := by decide
  length_values _ := rfl
  fits x _ _ value hvalue := by
    have hall : List.Forall (Json.Fits 1) (Json.Record.values x) :=
      ⟨(keptSlot_text _).fits zero_le_one, (keptSlot_instant _).fits zero_le_one,
        (keptSlot_instant _).fits zero_le_one, (keptSlot_text _).fits zero_le_one,
        (keptSlot_pipeline _).fits le_rfl, (keptSlot_queue _).fits le_rfl⟩
    exact List.forall_iff_forall_mem.mp hall value hvalue
  ofValues?_values x _ _ := by
    simp only [Json.Record.values, Json.Record.ofValues?, (keptSlot_text _).optional?,
      (keptSlot_instant _).optional?, (keptSlot_pipeline _).optional?,
      (keptSlot_queue _).optional?]
    rfl
  complete_of_ofValues? _ _ _ := trivial

instance : Lossless Origin where
  numbers x := [x.lat, x.lon].reduceOption
  Complete _ := True
  height := 0
  nodup := by decide
  length_values _ := rfl
  fits x h _ value hvalue := by
    have hall : List.Forall (Json.Fits 0) (Json.Record.values x) :=
      ⟨(kept_text _).fits le_rfl, (keptSlot_text _).fits le_rfl, (keptSlot_text _).fits le_rfl,
        (keptSlot_single h (by simp)).fits le_rfl, (keptSlot_single h (by simp)).fits le_rfl⟩
    exact List.forall_iff_forall_mem.mp hall value hvalue
  ofValues?_values x h _ := by
    simp only [Json.Record.values, Json.Record.ofValues?, required?_some (kept_text _),
      (keptSlot_text _).optional?, (keptSlot_single h (x := x.lat) (by simp)).optional?,
      (keptSlot_single h (x := x.lon) (by simp)).optional?]
    rfl
  complete_of_ofValues? _ _ _ := trivial

/-- The numbers of a record survive. -/
def Survive {α : Type} [Json.Record α] [Lossless α] (x : α) : Prop := ∀ n ∈ numbers x, n.Survives

/-- A record is read back as it was: its numbers survive, and everything of it is written. -/
structure Lasts {α : Type} [Json.Record α] [Lossless α] (x : α) : Prop where
  /-- Its numbers survive. -/
  survive : Survive x
  /-- Everything of it is written. -/
  complete : Complete x

/-- The types of states that last under updates. -/
class Lasting (α : Type) [Mergeable α] extends Lossless α where
  /-- The state of which nothing is known lasts. -/
  lasts_default : Lasts (default : α)
  /-- A state lasts under an update whose numbers survive. -/
  lasts_overlay : ∀ {current update : α}, Lasts current → Survive update →
    Lasts (Overlay.overlay current update)
  /-- The values of one category last. -/
  lasts_project : ∀ {state : α} (category : Category), Lasts state →
    Lasts (Mergeable.project state category)
  /-- No two slots of a remembered change have the same name. -/
  entry_nodup : ((entryForm α).map Json.Slot.name).Nodup
  /-- A remembered change can be taken out of its text. -/
  height_le : Lossless.height α ≤ entryDepth

instance : Lasting SensorRecord where
  lasts_default := ⟨fun _ hn => absurd hn List.not_mem_nil, rfl⟩
  lasts_overlay hcurrent hupdate := by
    refine ⟨?_, hcurrent.complete⟩
    intro n hn
    rcases SensorRecord.mem_numbers_overlay hn with hn | hn
    · exact hcurrent.survive n hn
    · exact hupdate n hn
  lasts_project category h := by
    refine ⟨fun n hn => h.survive n (SensorRecord.mem_numbers_project hn), ?_⟩
    cases category <;> rfl
  entry_nodup := by decide
  height_le := by decide

instance : Lasting GatewayStatus where
  lasts_default := ⟨fun _ hn => absurd hn List.not_mem_nil, trivial⟩
  lasts_overlay {current update} hcurrent hupdate := by
    refine ⟨?_, trivial⟩
    intro n hn
    rcases mem_reduceOption_or [current.lat, current.lon, current.snr]
      [update.lat, update.lon, update.snr] hn with hn | hn
    · exact hcurrent.survive n hn
    · exact hupdate n hn
  lasts_project {state} category h := by
    refine ⟨?_, trivial⟩
    intro n hn
    apply h.survive n
    cases category with
    | location =>
      have hmem : some n ∈ [state.lat, state.lon, none] := List.reduceOption_mem_iff.mp hn
      refine List.reduceOption_mem_iff.mpr ?_
      simp only [List.mem_cons, List.not_mem_nil, or_false, reduceCtorEq] at hmem ⊢
      rcases hmem with hlat | hlon
      · exact .inl hlat
      · exact .inr (.inl hlon)
    | _ => cases hn
  entry_nodup := by decide
  height_le := by decide

instance : Lasting ServerStatus where
  lasts_default := ⟨fun _ hn => absurd hn List.not_mem_nil, trivial⟩
  lasts_overlay _ _ := ⟨fun _ hn => absurd hn List.not_mem_nil, trivial⟩
  lasts_project _ _ := ⟨fun _ hn => absurd hn List.not_mem_nil, trivial⟩
  entry_nodup := by decide
  height_le := by decide

/-! ## Remembered changes -/

section Histories

variable {α : Type} [Mergeable α] [Lasting α]

/-- The values of the slots of a remembered change. -/
def HistoryEntry.slotValues (entry : HistoryEntry α) : List (Option Json) :=
  some (.ofString entry.entityId) :: some (.ofInstant entry.changedAt)
    :: Json.Record.values entry.values

/-- A remembered change is read with the values that are read from the slots of its state. -/
theorem ofJson?_toJson {entry : HistoryEntry α} {state : α}
    (hfits : ∀ value ∈ Json.Record.values entry.values, Fits (height α) value)
    (hread : Json.Record.ofValues? (Json.Record.values entry.values) = some state) :
    HistoryEntry.ofJson? entry.toJson = some { entry with values := state }
      ∧ Fits (height α + 1) (some entry.toJson) := by
  have hjson : entry.toJson = .object (Json.written (entryForm α) entry.slotValues) := rfl
  have hlength : entry.slotValues.length = (entryForm α).length := by
    simp [HistoryEntry.slotValues, entryForm, Json.slots, Lossless.length_values]
  have hvalues : ∀ value ∈ entry.slotValues, Fits (height α) value := by
    intro value hvalue
    rcases List.mem_cons.mp hvalue with rfl | hvalue
    · exact (kept_text _).fits (Nat.zero_le _)
    · rcases List.mem_cons.mp hvalue with rfl | hvalue
      · exact (kept_instant _).fits (Nat.zero_le _)
      · exact hfits value hvalue
  -- The slots of the entity and of the time come before those of the values.
  have hobject := Json.fits_object (entryForm α) hvalues
  refine ⟨?_, hjson ▸ hobject⟩
  -- The members are held as a whole before the slots are looked for among them.
  have hheld : Json.plainMembers entryDepth (Json.written (entryForm α) entry.slotValues) = true :=
    (hobject _ rfl).2 (entryDepth + 1) (Nat.succ_le_succ Lasting.height_le)
  have hslots := Json.memberSlots?_written Lasting.entry_nodup hlength
  rw [hjson, HistoryEntry.ofJson?, hheld, hslots]
  simp only [HistoryEntry.slotValues, Option.bind_eq_bind, Option.bind_some,
    required?_some (kept_text _), required?_some (kept_instant _), hread]
  rfl

theorem kept_entry {entry : HistoryEntry α} (h : Lasts entry.values) :
    Json.Kept HistoryEntry.ofJson? HistoryEntry.toJson (height α + 1) entry := by
  obtain ⟨hread, hfits⟩ := ofJson?_toJson (Lossless.fits entry.values h.survive h.complete)
    (Lossless.ofValues?_values entry.values h.survive h.complete)
  exact ⟨hread, (hfits _ rfl).1, (hfits _ rfl).2⟩

/-- What has been read from an object was all written. -/
theorem complete_of_entry {value : Json} {entry : HistoryEntry α}
    (h : HistoryEntry.ofJson? value = some entry) : Complete entry.values := by
  unfold HistoryEntry.ofJson? at h
  split at h
  · simp only [Option.bind_eq_bind, Option.bind_eq_some_iff] at h
    obtain ⟨-, -, slots, -, h⟩ := h
    split at h
    · simp only [Option.bind_eq_some_iff] at h
      obtain ⟨-, -, -, -, state, hstate, ⟨⟩⟩ := h
      exact Lossless.complete_of_ofValues? _ _ hstate
    · cases h
  · cases h

/-- The changes of a category are kept when their values last. -/
theorem kept_changes {history : History α} (h : ∀ entry ∈ history.entries, Lasts entry.values) :
    Json.Kept history? historyJson (height α + 2) history := by
  have hkept := kept_items fun entry hentry => kept_entry (h entry hentry)
  refine ⟨?_, hkept.proper, hkept.plain⟩
  have hread : (historyJson history).items? HistoryEntry.ofJson? = some history.entries :=
    hkept.read_write
  -- A ring holds no more than it may, so nothing is dropped on reading.
  have htake : Ring.ofList history.entries = history := by
    obtain ⟨entries, hlength⟩ := history
    simp only [Ring.ofList, List.take_of_length_le hlength]
  rw [history?, hread, Option.map_some, htake]

/-- What has been read from an array of changes was all written. -/
theorem complete_of_history? {value : Json} {history : History α}
    (h : history? value = some history) {entry : HistoryEntry α}
    (hentry : entry ∈ history.entries) : Complete entry.values := by
  rw [history?, Option.map_eq_some_iff] at h
  obtain ⟨entries, hread, rfl⟩ := h
  unfold Json.items? at hread
  -- Only an array is read.
  split at hread
  · obtain ⟨item, -, hitem⟩ := mem_of_readAll? hread (List.mem_of_mem_take hentry)
    exact complete_of_entry hitem
  · cases hread

end Histories

/-! ## Snapshots -/

section Snapshots

variable {α : Type} [Mergeable α] [Lasting α]

/-- The numbers of the states of remembered changes. -/
def History.numbers (history : History α) : List Binary32 :=
  history.entries.flatMap fun entry => Lossless.numbers entry.values

theorem default?_some {β : Type} {read : Json → Option β} {write : β → Json} {height : Nat}
    (standard : β) {x : β} (h : Json.Kept read write height x) :
    Json.default? standard read (some (write x)) = some x := h.read_write

theorem complete_of_default? {value : Option Json} {state : α}
    (h : Json.default? default Json.record? value = some state) : Complete state := by
  cases value with
  | none =>
    cases h
    exact Lasting.lasts_default.complete
  | some json => exact Json.complete_of_record? h

theorem complete_of_defaultHistory? {value : Option Json} {history : History α}
    (h : Json.default? .empty history? value = some history) :
    ∀ entry ∈ history.entries, Complete entry.values := by
  cases value with
  | none =>
    cases h
    exact fun _ hentry => absurd hentry List.not_mem_nil
  | some json => exact fun _ hentry => complete_of_history? h hentry

/-- The numbers of a snapshot. -/
def Snapshot.numbers (s : Snapshot α) : List Binary32 :=
  Lossless.numbers s.current
    ++ (Category.all.flatMap fun category => (s.history category).numbers)
    ++ optionNumbers s.origin

/-- Everything of the states of a snapshot is written. -/
structure Snapshot.Complete (s : Snapshot α) : Prop where
  /-- Everything of the latest state is written. -/
  current : Lossless.Complete s.current
  /-- Everything of past states is written. -/
  history : ∀ category, ∀ entry ∈ (s.history category).entries, Lossless.Complete entry.values

section Lasting

variable {s : Snapshot α} (h : ∀ n ∈ s.numbers, n.Survives) (hcomplete : s.Complete)
include h

theorem Snapshot.survive_current : Survive s.current := by
  intro n hn
  exact h n (List.mem_append_left _ (List.mem_append_left _ hn))

theorem Snapshot.kept_origin : KeptSlot Json.record? Json.ofRecord 1 s.origin := by
  apply keptSlot_record
  · intro n hn
    exact h n (List.mem_append_right _ hn)
  · intro _ _
    trivial

include hcomplete

theorem Snapshot.lasts_entry (category : Category) {entry : HistoryEntry α}
    (hentry : entry ∈ (s.history category).entries) : Lasts entry.values := by
  refine ⟨?_, hcomplete.history category entry hentry⟩
  intro n hn
  apply h n
  have hcategory : category ∈ Category.all := by cases category <;> decide
  refine List.mem_append_left _ (List.mem_append_right _ ?_)
  rw [List.mem_flatMap]
  refine ⟨category, hcategory, ?_⟩
  rw [History.numbers, List.mem_flatMap]
  exact ⟨entry, hentry, hn⟩

theorem Snapshot.kept_current :
    Json.Kept Json.record? Json.ofRecord (height α + 1) s.current :=
  kept_record (survive_current h) hcomplete.current

theorem Snapshot.kept_history (category : Category) :
    Json.Kept history? historyJson (height α + 2) (s.history category) :=
  kept_changes fun _ hentry => lasts_entry h hcomplete category hentry

end Lasting

open Snapshot (kept_current kept_history kept_origin)

instance : Lossless (Snapshot α) where
  numbers := Snapshot.numbers
  Complete := Snapshot.Complete
  height := height α + 2
  nodup := by simp [Json.Record.form, Json.slots]
  length_values _ := rfl
  fits s h hcomplete value hvalue := by
    have hhistory (category : Category) := (kept_history h hcomplete category).fits le_rfl
    have hall : List.Forall (Json.Fits (height α + 2)) (Json.Record.values s) :=
      ⟨(kept_current h hcomplete).fits (Nat.le_succ _), hhistory .location, hhistory .geiger,
        hhistory .pms, hhistory .opc, (kept_origin h).fits (by omega),
        (keptSlot_instant _).fits (Nat.zero_le _)⟩
    exact List.forall_iff_forall_mem.mp hall value hvalue
  ofValues?_values s h hcomplete := by
    have hhistory (category : Category) :=
      default?_some (.empty : History α) (kept_history h hcomplete category)
    have hlocation := hhistory .location
    have hgeiger := hhistory .geiger
    have hpms := hhistory .pms
    have hopc := hhistory .opc
    simp only [Snapshot.history] at hlocation hgeiger hpms hopc
    simp only [Json.Record.values, Json.Record.ofValues?,
      default?_some default (kept_current h hcomplete), hlocation, hgeiger, hpms, hopc,
      (kept_origin h).optional?, (keptSlot_instant _).optional?]
    rfl
  complete_of_ofValues? values s h := by
    simp only [Json.Record.ofValues?] at h
    split at h
    · simp only [Option.bind_eq_bind, Option.bind_eq_some_iff] at h
      obtain ⟨current, hcurrent, location, hlocation, geiger, hgeiger, pms, hpms, opc, hopc, -, -,
        -, -, ⟨⟩⟩ := h
      refine ⟨complete_of_default? hcurrent, ?_⟩
      intro category
      cases category with
      | location => exact complete_of_defaultHistory? hlocation
      | geiger => exact complete_of_defaultHistory? hgeiger
      | pms => exact complete_of_defaultHistory? hpms
      | opc => exact complete_of_defaultHistory? hopc
    · cases h

namespace Snapshot

/-- A snapshot is read back from its contents. -/
theorem ofOctets?_render {s : Snapshot α} (h : Lasts s) : ofOctets? s.render = some s := by
  have hkept := kept_record h.survive h.complete
  rw [ofOctets?, render, Json.parse?_pretty hkept.proper]
  exact hkept.read_write

/-- What has been read from contents was all written. -/
theorem complete_of_ofOctets? {octets : Octets} {s : Snapshot α} (h : ofOctets? octets = some s) :
    s.Complete := by
  rw [ofOctets?, Option.bind_eq_bind, Option.bind_eq_some_iff] at h
  obtain ⟨value, -, hvalue⟩ := h
  exact Json.complete_of_record? hvalue

/-- A snapshot lasts when its states do and the numbers of its origin survive. -/
theorem lasts_iff {s : Snapshot α} :
    Lasts s ↔ Lasts s.current ∧ (∀ category, ∀ entry ∈ (s.history category).entries,
      Lasts entry.values) ∧ ∀ n ∈ optionNumbers s.origin, n.Survives := by
  constructor
  · intro h
    exact ⟨⟨survive_current h.survive, h.complete.current⟩,
      fun category _ hentry => lasts_entry h.survive h.complete category hentry,
      fun n hn => h.survive n (List.mem_append_right _ hn)⟩
  · rintro ⟨hcurrent, hhistory, horigin⟩
    refine ⟨?_, hcurrent.complete, fun category entry hentry =>
      (hhistory category entry hentry).complete⟩
    intro n hn
    -- The numbers of a snapshot are those of the latest state, of past states and of the origin.
    rcases List.mem_append.mp hn with hn | hn
    · rcases List.mem_append.mp hn with hn | hn
      · exact hcurrent.survive n hn
      · obtain ⟨category, -, hn⟩ := List.mem_flatMap.mp hn
        obtain ⟨entry, hentry, hn⟩ := List.mem_flatMap.mp hn
        exact (hhistory category entry hentry).survive n hn
    · exact horigin n hn

theorem lasts_empty : Lasts (empty : Snapshot α) := by
  rw [lasts_iff]
  refine ⟨Lasting.lasts_default, ?_, fun n hn => absurd hn List.not_mem_nil⟩
  intro category entry hentry
  -- Nothing has changed yet in any category.
  cases category <;> cases hentry

end Snapshot

end Snapshots

end Store

end FieldTelemetry
