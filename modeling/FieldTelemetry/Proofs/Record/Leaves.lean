import FieldTelemetry.Record.Counters
import FieldTelemetry.Record.SensorRecord

/-!
# Fields under updates

A record is a tree of groups whose leaves are optional values. An update sets the fields that it has
and leaves the others, so that the same update once more changes nothing.

## Main definitions

* `Leaf`: a value that a field holds
* `Fielded`: the types whose values have fields

## Main results

* `Fielded` for the groups of a record and `SensorRecord`
-/

namespace FieldTelemetry

open Time (Instant)

/-- A value that a field holds. -/
inductive Leaf
  /-- A number. -/
  | number (x : Binary32)
  /-- A signed word. -/
  | signed (x : Int32)
  /-- A word. -/
  | word (x : UInt32)
  /-- A long word. -/
  | longWord (x : UInt64)
  /-- A text. -/
  | text (x : String)
  /-- An instant. -/
  | instant (x : Instant)
  /-- The counts of a pipeline, which are reported together. -/
  | pipeline (x : PipelineCounters)
  /-- The counts of a queue, which are reported together. -/
  | queue (x : QueueCounters)
deriving DecidableEq

/-- The types whose values have fields. -/
class Fielded (α : Type) [Overlay α] where
  /-- The fields, each of which holds a leaf or nothing. -/
  fields : List (α → Option Leaf)
  /-- An update sets the fields that it has, and leaves the others. -/
  field_overlay : ∀ field ∈ fields, ∀ current update : α,
    field (Overlay.overlay current update) = (field update).or (field current)
  /-- A value under itself stays. -/
  overlay_self : ∀ x : α, Overlay.overlay x x = x
  /-- The same update once more changes nothing. -/
  overlay_overlay : ∀ current update : α,
    Overlay.overlay (Overlay.overlay current update) update = Overlay.overlay current update

export Fielded (fields field_overlay overlay_self overlay_overlay)

/-! ## Groups -/

section Groups

variable {α : Type} [Overlay α]

theorem or_or_self {β : Type} (update current : Option β) :
    update.or (update.or current) = update.or current := by
  rw [← Option.or_assoc, Option.or_self]

/-- The fields of an optional group. -/
def groupFields {β : Type} [Overlay β] [Fielded β] (group : α → Option β) :
    List (α → Option Leaf) :=
  fields.map fun field x => (group x).bind field

theorem field_group {β : Type} [Overlay β] [Fielded β] {group : α → Option β}
    {current update : α}
    (hgroup : group (Overlay.overlay current update) = overlayGroup (group current) (group update))
    {field : α → Option Leaf} (hfield : field ∈ groupFields group) :
    field (Overlay.overlay current update) = (field update).or (field current) := by
  obtain ⟨inner, hinner, rfl⟩ := List.mem_map.mp hfield
  dsimp only
  rw [hgroup]
  cases group current with
  | none => cases group update <;> simp [overlayGroup]
  | some a =>
    cases group update with
    | none => simp [overlayGroup]
    | some b => exact field_overlay inner hinner a b

theorem overlayGroup_self [Fielded α] (x : Option α) : overlayGroup x x = x := by
  cases x with
  | none => rfl
  | some a => exact congrArg some (overlay_self a)

theorem overlayGroup_overlayGroup [Fielded α] (current update : Option α) :
    overlayGroup (overlayGroup current update) update = overlayGroup current update := by
  cases update with
  | none => cases current <;> rfl
  | some b =>
    cases current with
    -- A group that was absent is filled by the update.
    | none => exact congrArg some (overlay_self b)
    | some a => exact congrArg some (overlay_overlay a b)

end Groups

instance : Fielded Location where
  fields := [(·.lat.map .number), (·.lon.map .number), (·.alt.map .signed)]
  field_overlay field hfield a b := by
    simp only [List.mem_cons, List.not_mem_nil, or_false] at hfield
    rcases hfield with rfl | rfl | rfl <;> exact Option.map_or
  overlay_self x := by simp only [Overlay.overlay, Option.or_self]
  overlay_overlay a b := by simp only [Overlay.overlay, or_or_self]

instance : Fielded Environment where
  fields := [(·.temp.map .number), (·.humid.map .number), (·.press.map .number)]
  field_overlay field hfield a b := by
    simp only [List.mem_cons, List.not_mem_nil, or_false] at hfield
    rcases hfield with rfl | rfl | rfl <;> exact Option.map_or
  overlay_self x := by simp only [Overlay.overlay, Option.or_self]
  overlay_overlay a b := by simp only [Overlay.overlay, or_or_self]

instance : Fielded Battery where
  fields := [(·.voltage.map .number), (·.soc.map .number), (·.current.map .number)]
  field_overlay field hfield a b := by
    simp only [List.mem_cons, List.not_mem_nil, or_false] at hfield
    rcases hfield with rfl | rfl | rfl <;> exact Option.map_or
  overlay_self x := by simp only [Overlay.overlay, Option.or_self]
  overlay_overlay a b := by simp only [Overlay.overlay, or_or_self]

instance : Fielded Geiger where
  fields := [(·.cpm0.map .word), (·.cpm1.map .word)]
  field_overlay field hfield a b := by
    simp only [List.mem_cons, List.not_mem_nil, or_false] at hfield
    rcases hfield with rfl | rfl <;> exact Option.map_or
  overlay_self x := by simp only [Overlay.overlay, Option.or_self]
  overlay_overlay a b := by simp only [Overlay.overlay, or_or_self]

instance : Fielded Particulate where
  fields :=
    [(·.pm01_0.map .number), (·.pm02_5.map .number), (·.pm10_0.map .number), (·.csecs.map .word)]
  field_overlay field hfield a b := by
    simp only [List.mem_cons, List.not_mem_nil, or_false] at hfield
    rcases hfield with rfl | rfl | rfl | rfl <;> exact Option.map_or
  overlay_self x := by simp only [Overlay.overlay, Option.or_self]
  overlay_overlay a b := by simp only [Overlay.overlay, or_or_self]

instance : Fielded Reception where
  fields :=
    [(·.id.map .text), (·.lat.map .number), (·.lon.map .number), (·.alt.map .signed),
      (·.snr.map .number), (·.location.map .text)]
  field_overlay field hfield a b := by
    simp only [List.mem_cons, List.not_mem_nil, or_false] at hfield
    rcases hfield with rfl | rfl | rfl | rfl | rfl | rfl <;> exact Option.map_or
  overlay_self x := by simp only [Overlay.overlay, Option.or_self]
  overlay_overlay a b := by simp only [Overlay.overlay, or_or_self]

instance : Fielded ServiceInfo where
  fields :=
    [(·.uploadedAt.map .instant), (·.transport.map .text), (·.checksum.map .text),
      (·.sequence.map .longWord)]
  field_overlay field hfield a b := by
    simp only [List.mem_cons, List.not_mem_nil, or_false] at hfield
    rcases hfield with rfl | rfl | rfl | rfl <;> exact Option.map_or
  overlay_self x := by simp only [Overlay.overlay, Option.or_self]
  overlay_overlay a b := by simp only [Overlay.overlay, or_or_self]

/-! ## Records -/

instance : Fielded SensorRecord where
  fields :=
    [(·.deviceId.map .word), (·.deviceName.map .text), (·.deviceType.map .text),
        (·.capturedAt.map .instant)]
      ++ groupFields (·.location) ++ groupFields (·.environment) ++ groupFields (·.battery)
      ++ groupFields (·.geiger) ++ groupFields (·.pms) ++ groupFields (·.opc)
      ++ groupFields (·.gateway) ++ groupFields (·.service)
  field_overlay field hfield a b := by
    simp only [List.mem_append, List.mem_cons, List.not_mem_nil, or_false, or_assoc] at hfield
    rcases hfield with rfl | rfl | rfl | rfl | h | h | h | h | h | h | h | h
    · exact Option.map_or
    · exact Option.map_or
    · exact Option.map_or
    · exact Option.map_or
    all_goals exact field_group rfl h
  overlay_self x := by simp only [Overlay.overlay, Option.or_self, overlayGroup_self]
  overlay_overlay a b := by
    simp only [Overlay.overlay, or_or_self, overlayGroup_overlayGroup]

end FieldTelemetry
