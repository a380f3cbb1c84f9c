import FieldTelemetry.Json.Render
import FieldTelemetry.Json.Tree
import FieldTelemetry.Ring
import FieldTelemetry.Store.Kind
import FieldTelemetry.Store.Origin

/-!
# Snapshots

The snapshot of an entity is its current state, the latest changes of every category, and where and
when the latest update came.

## Main definitions

* `HistoryEntry`: a past state of a category
* `Snapshot`: the snapshot of an entity
* `Snapshot.merge`: a snapshot after an update, with the categories that changed
* `Snapshot.render`, `Snapshot.ofOctets?`: a snapshot as the contents of a file, and back
-/

namespace FieldTelemetry.Store

open Json (Slot slots optional? required? default?)
open Time (Instant)

/-- The number of changes that are remembered for every category. -/
def historyDepth : Nat := 5

/-- A past state of a category. -/
structure HistoryEntry (α : Type) where
  /-- The entity that changed. -/
  entityId : String
  /-- When the change was merged. -/
  changedAt : Instant
  /-- The values of the category after the change. -/
  values : α
deriving DecidableEq

/-- The latest changes of a category, newest first. -/
abbrev History (α : Type) := Ring historyDepth (HistoryEntry α)

/-- The snapshot of an entity. -/
structure Snapshot (α : Type) where
  /-- The latest known values. -/
  current : α
  /-- Changes of the position. -/
  location : History α := .empty
  /-- Changes of the Geiger tubes. -/
  geiger : History α := .empty
  /-- Changes of the first particle counter. -/
  pms : History α := .empty
  /-- Changes of the second particle counter. -/
  opc : History α := .empty
  /-- Where the latest update came from. -/
  origin : Option Origin := none
  /-- When the latest update was merged. -/
  updatedAt : Option Instant := none
deriving DecidableEq

namespace Snapshot

variable {α : Type} [Mergeable α]

/-- The snapshot of an entity of which nothing is known. -/
def empty : Snapshot α := { current := default }

instance : Inhabited (Snapshot α) := ⟨empty⟩

/-- The changes of a category. -/
def history (snapshot : Snapshot α) : Category → History α
  | .location => snapshot.location
  | .geiger => snapshot.geiger
  | .pms => snapshot.pms
  | .opc => snapshot.opc

/-- The snapshot with one more change of a category. -/
def record (snapshot : Snapshot α) (category : Category) (entry : HistoryEntry α) : Snapshot α :=
  match category with
  | .location => { snapshot with location := snapshot.location.push entry }
  | .geiger => { snapshot with geiger := snapshot.geiger.push entry }
  | .pms => { snapshot with pms := snapshot.pms.push entry }
  | .opc => { snapshot with opc := snapshot.opc.push entry }

/-- A category counts as changed between two states when its values do not count as the same. -/
def changed (before after : α) (category : Category) : Bool :=
  !Alike.alike (Mergeable.project after category) (Mergeable.project before category)

/-- The snapshot after an update of an entity at an instant. Every tracked category that changed is
remembered. -/
def merge (snapshot : Snapshot α) (id : String) (update : α) (tracked : List Category)
    (at_ : Instant) : Snapshot α × List Category :=
  let current := Overlay.overlay snapshot.current update
  -- Changes are judged after the update, not by what the update names.
  let categories := tracked.filter (changed snapshot.current current)
  let snapshot := categories.foldl
    (fun s category => s.record category ⟨id, at_, Mergeable.project current category⟩) snapshot
  ({ snapshot with current := current, updatedAt := some at_ }, categories)

end Snapshot

/-! ## Documents -/

variable {α : Type} [Mergeable α]

/-- The slots of a remembered change: the entity and the time, and the slots of the state. -/
def entryForm (α : Type) [Mergeable α] : List Slot :=
  slots false ["entity_id", "changed_at"] ++ Json.Record.form α

/-- Arrays and objects within a remembered change may nest to this depth, which brings the whole
document to 127. -/
def entryDepth : Nat := 124

namespace HistoryEntry

/-- A remembered change in JSON: one object with the entity, the time and the values. -/
def toJson (entry : HistoryEntry α) : Json :=
  .ofMembers (Json.present (entryForm α)
    (some (.ofString entry.entityId) :: some (.ofInstant entry.changedAt)
      :: Json.Record.values entry.values))

/-- The remembered change of a JSON object. All its members can be taken out of their text. -/
def ofJson? : Json → Option (HistoryEntry α)
  | .object members => do
    -- Members that belong to no slot are held until the object ends, and so they count.
    guard (Json.plainMembers entryDepth members)
    match ← Json.memberSlots? (entryForm α) members with
    | entityId :: changedAt :: values =>
      return ⟨← required? Json.text? entityId, ← required? Json.instant? changedAt,
        ← Json.Record.ofValues? values⟩
    | _ => none
  | _ => none

end HistoryEntry

/-- The remembered changes of a category in JSON. -/
def historyJson (history : History α) : Json := .array (history.entries.map HistoryEntry.toJson)

/-- The remembered changes of a JSON array. Only the latest are kept when there are more. -/
def history? (value : Json) : Option (History α) :=
  (value.items? HistoryEntry.ofJson?).map Ring.ofList

instance : Json.Record (Snapshot α) where
  form := slots true ["current", "location_history", "geiger_history", "pms_history",
    "opc_history", "origin", "updated_at"]
  values x :=
    [some (Json.ofRecord x.current), some (historyJson x.location), some (historyJson x.geiger),
      some (historyJson x.pms), some (historyJson x.opc), x.origin.map Json.ofRecord,
      x.updatedAt.map Json.ofInstant]
  ofValues?
    | [current, location, geiger, pms, opc, origin, updatedAt] => do
      return ⟨← default? default Json.record? current, ← default? .empty history? location,
        ← default? .empty history? geiger, ← default? .empty history? pms,
        ← default? .empty history? opc, ← optional? Json.record? origin,
        ← optional? Json.instant? updatedAt⟩
    | _ => none

namespace Snapshot

/-- The contents of the file of a snapshot. -/
def render (snapshot : Snapshot α) : Octets := Text.utf8 (Json.ofRecord snapshot).pretty

/-- The snapshot of the contents of a file. -/
def ofOctets? (octets : Octets) : Option (Snapshot α) := do
  (← Json.parse? octets).record?

end Snapshot

end FieldTelemetry.Store
