import FieldTelemetry.Proofs.Record.Alike
import FieldTelemetry.Proofs.Record.Leaves
import FieldTelemetry.Proofs.Store.Snapshot

/-!
# States of all kinds

The states of devices, gateways and collectors have fields, of which some belong to the categories
whose changes are remembered, and an equality that is an equivalence on the states that last.

## Main definitions

* `LawfulState`: the states with such fields and such an equality

## Main results

* `LawfulState` for `SensorRecord`, `GatewayStatus` and `ServerStatus`
* `alike_self`: a state that lasts counts as the same as itself
-/

namespace FieldTelemetry.Store

open EquivalenceOn (same number)

instance : Fielded GatewayStatus where
  fields :=
    [(·.lat.map .number), (·.lon.map .number), (·.alt.map .signed), (·.location.map .text),
      (·.snr.map .number), (·.lastTransport.map .text), (·.lastSeen.map .instant)]
  field_overlay field hfield a b := by
    simp only [List.mem_cons, List.not_mem_nil, or_false] at hfield
    rcases hfield with rfl | rfl | rfl | rfl | rfl | rfl | rfl <;> exact Option.map_or
  overlay_self x := by simp only [Overlay.overlay, Option.or_self]
  overlay_overlay a b := by simp only [Overlay.overlay, or_or_self]

instance : Fielded ServerStatus where
  fields :=
    [(·.instanceId.map .text), (·.startedAt.map .instant), (·.lastHeartbeat.map .instant),
      (·.version.map .text), (·.pipeline.map .pipeline), (·.queue.map .queue)]
  field_overlay field hfield a b := by
    simp only [List.mem_cons, List.not_mem_nil, or_false] at hfield
    rcases hfield with rfl | rfl | rfl | rfl | rfl | rfl <;> exact Option.map_or
  overlay_self x := by simp only [Overlay.overlay, Option.or_self]
  overlay_overlay a b := by simp only [Overlay.overlay, or_or_self]

instance : LawfulAlike GatewayStatus where
  equivalence :=
    ((((((number GatewayStatus.lat fun _ => ⟨_, rfl, by simp⟩).and
      (number GatewayStatus.lon fun _ => ⟨_, rfl, by simp⟩)).and (same GatewayStatus.alt)).and
      (same GatewayStatus.location)).and
      (number GatewayStatus.snr fun _ => ⟨_, rfl, by simp⟩)).and
      (same GatewayStatus.lastTransport)).and (same GatewayStatus.lastSeen)

instance : LawfulAlike ServerStatus where
  equivalence := same id

/-- The states whose fields belong to categories, with an equality that is an equivalence on the
states without a NaN. -/
class LawfulState (α : Type) [Mergeable α] [Lasting α] extends Fielded α, LawfulAlike α where
  /-- The fields hold nothing when nothing is known. -/
  field_default : ∀ field ∈ fields, field (default : α) = none
  /-- The values of a category are those of the fields that belong to it. -/
  field_project : ∀ field ∈ fields, ∀ (x : α) (category : Category),
    field (Mergeable.project x category) = none
      ∨ field (Mergeable.project x category) = field x

export LawfulState (field_default field_project)

instance : LawfulState SensorRecord where
  field_default := by decide
  field_project field hfield x category := by
    simp only [fields, List.mem_append, List.mem_cons, List.not_mem_nil, or_false,
      or_assoc] at hfield
    rcases hfield with rfl | rfl | rfl | rfl | h | h | h | h | h | h | h | h
    iterate 4 exact .inl (by cases category <;> rfl)
    all_goals
      obtain ⟨inner, -, rfl⟩ := List.mem_map.mp h
      cases category <;> first | exact .inl rfl | exact .inr rfl

instance : LawfulState GatewayStatus where
  field_default := by decide
  field_project field hfield x category := by
    simp only [fields, List.mem_cons, List.not_mem_nil, or_false] at hfield
    rcases hfield with rfl | rfl | rfl | rfl | rfl | rfl | rfl <;>
      cases category <;> first | exact .inl rfl | exact .inr rfl

instance : LawfulState ServerStatus where
  field_default := by decide
  field_project field hfield _ _ := by
    simp only [fields, List.mem_cons, List.not_mem_nil, or_false] at hfield
    -- Nothing of a collector belongs to a category.
    rcases hfield with rfl | rfl | rfl | rfl | rfl | rfl <;> exact .inl rfl

/-- A state that lasts counts as the same as itself. -/
theorem alike_self {α : Type} [Mergeable α] [Lasting α] [LawfulState α] {x : α} (h : Lasts x) :
    Alike.alike x x = true :=
  equivalence.self fun n hn => Binary32.isNaN_eq_false (h.survive n hn)

end FieldTelemetry.Store
