import FieldTelemetry.Proofs.Store.Cycles

/-!
# Remembered changes of a run of updates

From the snapshot of which nothing is known, updates are merged one after the other. For every
tracked category the snapshot then remembers the last five updates that changed it, newest first,
with the values that the category had after each of them.

## Main definitions

* `Update`, `Snapshot.mergeAll`: updates with the times of their merges, and the snapshot after them
* `Transition`, `transitions`: what each update made of the state before it
* `Categorized`: the states whose fields are sorted by category

## Main results

* `Snapshot.history_mergeAll`, `Snapshot.changes_mergeAll`, `Snapshot.current_mergeAll`: what a run
  of updates leaves of a snapshot, and what it said to have changed
* `Snapshot.remembers_last_five`: the same from the empty snapshot, field by field
-/

namespace FieldTelemetry.Store

open Time (Instant)

/-! ## Runs of updates -/

/-- An update, with the time of its merge. -/
structure Update (α : Type) where
  /-- The values of the update. -/
  values : α
  /-- When it was merged. -/
  mergedAt : Instant

/-- What an update made of a state. -/
structure Transition (α : Type) where
  /-- The state before the update. -/
  before : α
  /-- The state after the update. -/
  after : α
  /-- When the update was merged. -/
  mergedAt : Instant

section Runs

variable {α : Type} [Mergeable α]

namespace Transition

/-- The values of a category do not count as the same before and after. -/
def Changes (t : Transition α) (category : Category) : Prop :=
  Alike.alike (Mergeable.project t.after category) (Mergeable.project t.before category) = false

instance (t : Transition α) (category : Category) : Decidable (t.Changes category) := by
  unfold Changes; infer_instance

/-- How a change of a category of an entity is remembered. -/
def entry (id : String) (category : Category) (t : Transition α) : HistoryEntry α :=
  ⟨id, t.mergedAt, Mergeable.project t.after category⟩

end Transition

/-- What updates make of a state, one after the other. -/
def transitions (state : α) : (updates : List (Update α)) → List (Transition α)
  | [] => []
  | update :: updates =>
    let after := Overlay.overlay state update.values
    ⟨state, after, update.mergedAt⟩ :: transitions after updates

/-- The changes of a category of an entity under updates, newest first. -/
def changesOf (id : String) (category : Category) (state : α) (updates : List (Update α)) :
    List (HistoryEntry α) :=
  (((transitions state updates).filter fun t => t.Changes category).map
    (Transition.entry id category)).reverse

/-- The snapshot after updates of an entity, with the categories that each of them changed. -/
def Snapshot.mergeAll (s : Snapshot α) (id : String) (tracked : List Category) :
    (updates : List (Update α)) → Snapshot α × List (List Category)
  | [] => (s, [])
  | update :: updates =>
    let (s, categories) := s.merge id update.values tracked update.mergedAt
    let (s, rest) := s.mergeAll id tracked updates
    (s, categories :: rest)

/-! ### One update -/

/-- The transition of the latest values of a snapshot under an update. -/
def Snapshot.transition (s : Snapshot α) (update : Update α) : Transition α :=
  ⟨s.current, Overlay.overlay s.current update.values, update.mergedAt⟩

theorem changesOf_cons (id : String) (category : Category) (s : Snapshot α) (update : Update α)
    (updates : List (Update α)) :
    changesOf id category s.current (update :: updates)
      = changesOf id category (s.transition update).after updates
        ++ if (s.transition update).Changes category then [(s.transition update).entry id category]
          else [] := by
  change (((s.transition update :: transitions (s.transition update).after updates).filter _).map
    _).reverse = _
  rw [List.filter_cons]
  split
  · rename_i hchanges
    rw [if_pos (of_decide_eq_true hchanges), List.map_cons, List.reverse_cons]
    rfl
  · rename_i hsame
    rw [if_neg fun h => hsame (decide_eq_true h), List.append_nil]
    rfl

/-- An update is said to change the tracked categories that it changes, in their order. -/
theorem Snapshot.changes_merge (s : Snapshot α) (id : String) (tracked : List Category)
    (update : Update α) :
    (s.merge id update.values tracked update.mergedAt).2
      = tracked.filter fun category => (s.transition update).Changes category := by
  apply List.filter_congr
  intro category _
  rw [Bool.eq_iff_iff, decide_eq_true_iff, Snapshot.changed, Bool.not_eq_true']
  rfl

/-- A category is remembered once more when it is tracked and the update changes it. -/
theorem Snapshot.history_merge {tracked : List Category} (htracked : tracked.Nodup)
    (s : Snapshot α) (id : String) (update : Update α) (category : Category) :
    (s.merge id update.values tracked update.mergedAt).1.history category
      = if category ∈ tracked ∧ (s.transition update).Changes category then
          (s.history category).push ((s.transition update).entry id category)
        else s.history category := by
  -- A merge is the update of a call of a kind that tracks these categories and prepares nothing.
  let call : Call α := ⟨⟨"", tracked, fun values => values⟩, id, update.values, none, 0⟩
  have hmem : category ∈ call.changes s
      ↔ category ∈ tracked ∧ (s.transition update).Changes category := call.mem_changes s
  have hhistory := call.history_onto_of_nodup s update.mergedAt htracked category
  simp only [hmem] at hhistory
  refine Eq.trans ?_ hhistory
  cases category <;> rfl

/-! ### All updates -/

variable {tracked : List Category} (s : Snapshot α) (id : String)

/-- After updates a tracked category remembers the latest of its changes, newest first, and the
others remember what they did before. -/
theorem Snapshot.history_mergeAll (htracked : tracked.Nodup) (updates : List (Update α))
    (category : Category) :
    ((s.mergeAll id tracked updates).1.history category).entries
      = if category ∈ tracked then
          (changesOf id category s.current updates ++ (s.history category).entries).take
            historyDepth
        else (s.history category).entries := by
  induction updates generalizing s with
  | nil =>
    have hfits := (s.history category).length_le
    split
    · exact (List.take_of_length_le hfits).symm
    · rfl
  | cons update updates ih =>
    have hnext := s.history_merge htracked id update category
    refine (ih (s.merge id update.values tracked update.mergedAt).1).trans ?_
    rw [hnext, changesOf_cons]
    by_cases hmem : category ∈ tracked
    · rw [if_pos hmem, if_pos hmem]
      by_cases hchanges : (s.transition update).Changes category
      · -- What an earlier update dropped is not among the latest changes after later ones either.
        rw [if_pos ⟨hmem, hchanges⟩, if_pos hchanges, Ring.entries_push, List.append_assoc,
          List.singleton_append, List.take_append, List.take_append, List.take_take]
        congr 2
        exact min_eq_left (Nat.sub_le ..)
      · rw [if_neg fun h => hchanges h.2, if_neg hchanges, List.append_nil]
        rfl
    · rw [if_neg hmem, if_neg hmem, if_neg fun h => hmem h.1]

/-- Every update is said to change the tracked categories that it changes. -/
theorem Snapshot.changes_mergeAll (tracked : List Category) (updates : List (Update α)) :
    (s.mergeAll id tracked updates).2
      = (transitions s.current updates).map fun t =>
          tracked.filter fun category => t.Changes category := by
  induction updates generalizing s with
  | nil => rfl
  | cons update updates ih =>
    have hrest := ih (s.merge id update.values tracked update.mergedAt).1
    exact congrArg₂ List.cons (s.changes_merge id tracked update) hrest

theorem Snapshot.current_mergeAll (tracked : List Category) (updates : List (Update α)) :
    (s.mergeAll id tracked updates).1.current
      = (updates.map Update.values).foldl Overlay.overlay s.current := by
  induction updates generalizing s with
  | nil => rfl
  | cons update updates ih => exact ih (s.merge id update.values tracked update.mergedAt).1

end Runs

/-! ## Fields -/

/-- A field after updates is that of the latest update that has it. -/
theorem field_foldl_overlay {α : Type} [Overlay α] [Fielded α] {field : α → Option Leaf}
    (hfield : field ∈ fields) (current : α) (updates : List α) :
    field (updates.foldl Overlay.overlay current)
      = (updates.reverse.findSome? field).or (field current) := by
  induction updates using List.reverseRecOn with
  | nil => rfl
  | append_singleton updates update ih =>
    rw [List.foldl_append, List.foldl_cons, List.foldl_nil, field_overlay field hfield, ih,
      List.reverse_append, List.reverse_singleton, List.singleton_append, List.findSome?_cons,
      ← Option.or_assoc]
    cases field update <;> rfl

/-- The states whose fields are sorted by the category that they belong to. -/
class Categorized (α : Type) [Mergeable α] [Fielded α] where
  /-- Every field, with its category if it belongs to one. -/
  categorized : List (Option Category × (α → Option Leaf))
  /-- No field is missing. -/
  map_categorized : categorized.map Prod.snd = fields
  /-- The values of a category are those of its own fields and no others. -/
  field_project_eq : ∀ p ∈ categorized, ∀ (x : α) (category : Category),
    p.2 (Mergeable.project x category) = if p.1 = some category then p.2 x else none

export Categorized (categorized map_categorized field_project_eq)

/-- The fields of a group of a record, with the category of the group if it has one. -/
def groupCategorized {β : Type} [Overlay β] [Fielded β] (category : Option Category)
    (group : SensorRecord → Option β) : List (Option Category × (SensorRecord → Option Leaf)) :=
  (groupFields group).map (category, ·)

instance : Categorized SensorRecord where
  categorized :=
    [(none, (·.deviceId.map .word)), (none, (·.deviceName.map .text)),
        (none, (·.deviceType.map .text)), (none, (·.capturedAt.map .instant))]
      ++ groupCategorized (some .location) (·.location) ++ groupCategorized none (·.environment)
      ++ groupCategorized none (·.battery) ++ groupCategorized (some .geiger) (·.geiger)
      ++ groupCategorized (some .pms) (·.pms) ++ groupCategorized (some .opc) (·.opc)
      ++ groupCategorized none (·.gateway) ++ groupCategorized none (·.service)
  map_categorized := rfl
  field_project_eq p hp x category := by
    simp only [groupCategorized, groupFields, List.mem_append, List.mem_cons, List.not_mem_nil,
      List.map_map, List.mem_map, or_false, or_assoc] at hp
    rcases hp with rfl | rfl | rfl | rfl | h | h | h | h | h | h | h | h
    iterate 4 cases category <;> rfl
    all_goals
      obtain ⟨field, -, rfl⟩ := h
      cases category <;> rfl

instance : Categorized GatewayStatus where
  categorized :=
    [(some .location, (·.lat.map .number)), (some .location, (·.lon.map .number)),
      (some .location, (·.alt.map .signed)), (some .location, (·.location.map .text)),
      (none, (·.snr.map .number)), (none, (·.lastTransport.map .text)),
      (none, (·.lastSeen.map .instant))]
  map_categorized := rfl
  field_project_eq p hp x category := by
    simp only [List.mem_cons, List.not_mem_nil, or_false] at hp
    rcases hp with rfl | rfl | rfl | rfl | rfl | rfl | rfl <;> cases category <;> rfl

instance : Categorized ServerStatus where
  categorized := fields.map (none, ·)
  map_categorized := rfl
  field_project_eq p hp x category := by
    simp only [fields, List.map_cons, List.map_nil, List.mem_cons, List.not_mem_nil,
      or_false] at hp
    rcases hp with rfl | rfl | rfl | rfl | rfl | rfl <;> rfl

/-! ## From the empty snapshot -/

/-- When updates of an entity are merged from the empty snapshot on, every tracked category
remembers the last five transitions that changed it, newest first, each with the entity, the time
and the fields of the category alone. Each update is said to change exactly the tracked categories
that it changes, and every field of the latest values is that of the latest update that has it. -/
theorem Snapshot.remembers_last_five {α : Type} [Mergeable α] [Lasting α] [LawfulState α]
    [Categorized α] (id : String) {tracked : List Category} (htracked : tracked.Nodup)
    (updates : List (Update α)) :
    let merged := (empty : Snapshot α).mergeAll id tracked updates
    let steps := transitions (default : α) updates
    (∀ category, (merged.1.history category).entries
        = if category ∈ tracked then
            (((steps.filter fun t => t.Changes category).map fun t =>
              ⟨id, t.mergedAt, Mergeable.project t.after category⟩).reverse).take 5
          else [])
      ∧ (∀ t ∈ steps, ∀ category, ∀ p ∈ categorized,
          p.2 (Mergeable.project t.after category)
            = if p.1 = some category then p.2 t.after else none)
      ∧ (merged.2 = steps.map fun t => tracked.filter fun category => t.Changes category)
      ∧ merged.1.current = (updates.map Update.values).foldl Overlay.overlay default
      ∧ ∀ field ∈ fields, field merged.1.current
          = (updates.map Update.values).reverse.findSome? field := by
  intro merged steps
  have hcurrent := (empty : Snapshot α).current_mergeAll id tracked updates
  refine ⟨?_, ?_, (empty : Snapshot α).changes_mergeAll id tracked updates, hcurrent, ?_⟩
  · intro category
    have hhistory := (empty : Snapshot α).history_mergeAll id htracked updates category
    have hempty : ((empty : Snapshot α).history category).entries = [] := by cases category <;> rfl
    rw [hempty, List.append_nil] at hhistory
    exact hhistory
  · intro t _ category p hp
    exact field_project_eq p hp t.after category
  · intro field hfield
    rw [hcurrent, field_foldl_overlay hfield]
    exact (congrArg _ (field_default field hfield)).trans Option.or_none

/-- Altitudes of a device, reported one a second. -/
def climb (altitudes : List Int32) : List (Update SensorRecord) :=
  altitudes.zipIdx.map fun (altitude, n) =>
    ⟨{ location := some { alt := some altitude } }, (Instant.make? n 0).getD .epoch⟩

/-- Of seven reports of its altitude, one of which says nothing new, a device remembers the last
five changes. -/
theorem remembers_last_five_climb :
    let merged := (Snapshot.empty : Snapshot SensorRecord).mergeAll "100" [.location, .geiger]
      (climb [1, 2, 3, 3, 4, 5, 6])
    [Category.location, .geiger].Nodup
      ∧ merged.1.location.entries.map (fun entry =>
          (entry.changedAt.second, entry.values.location.bind Location.alt))
        = [(6, some 6), (5, some 5), (4, some 4), (2, some 3), (1, some 2)]
      ∧ merged.1.geiger.entries = [] ∧ merged.1.pms.entries = []
      ∧ merged.2 = [[.location], [.location], [.location], [], [.location], [.location],
        [.location]] := by
  intro merged
  have htracked : [Category.location, .geiger].Nodup := by decide
  obtain ⟨hhistory, -, hchanges, -, -⟩ := Snapshot.remembers_last_five "100" htracked
    (climb [1, 2, 3, 3, 4, 5, 6])
  refine ⟨htracked, ?_, ?_, hhistory .pms, ?_⟩
  · refine (congrArg (List.map _) (hhistory .location)).trans ?_
    decide +kernel
  · refine (hhistory .geiger).trans ?_
    decide +kernel
  · refine hchanges.trans ?_
    decide +kernel

end FieldTelemetry.Store
