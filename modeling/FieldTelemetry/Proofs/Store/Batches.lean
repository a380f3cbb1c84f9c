import FieldTelemetry.Proofs.Record.Layers
import FieldTelemetry.Proofs.Store.History

/-!
# Updates merged in batches

Updates of an entity may be folded into one before they are merged, and updates that agree with one
another leave the same current values in whatever order they are merged and however often.

## Main definitions

* `OverlayLaws`: what overlays of a type of states do

## Main results

* `Snapshot.current_mergeAll_eq_merge`: a batch of updates merged as one
* `Snapshot.current_mergeAll_congr`: copies and other orders of updates that agree
* `overlay_laws`: the laws for all states that are stored
-/

namespace FieldTelemetry.Store

open Overlay (overlay)
open Time (Instant)

instance : Flat GatewayStatus where
  values_eq x := by simp [Json.Record.values, fields, Leaf.json, Function.comp_def]
  ext {x y} h := by
    cases x
    cases y
    simpa [fields, Option.map_inj_right] using h

instance : Flat ServerStatus where
  values_eq x := by simp [Json.Record.values, fields, Leaf.json, Function.comp_def]
  ext {x y} h := by
    cases x
    cases y
    simpa [fields, Option.map_inj_right] using h

section Folds

variable {α : Type} [Mergeable α] [Fielded α]

/-- The latest leaf of a field among updates that agree is the leaf of any of them that has one. -/
theorem findSome?_eq_some_iff {updates : List α}
    (hagree : ∀ b ∈ updates, ∀ c ∈ updates, Agree b c) {field : α → Option Leaf}
    (hfield : field ∈ fields) (x : Leaf) :
    updates.reverse.findSome? field = some x ↔ ∃ update ∈ updates, field update = some x := by
  constructor
  · intro h
    obtain ⟨update, hmem, hsome⟩ := List.exists_of_findSome?_eq_some h
    exact ⟨update, List.mem_reverse.mp hmem, hsome⟩
  · rintro ⟨update, hmem, hsome⟩
    have hfound : (updates.reverse.findSome? field).isSome := by
      rw [List.findSome?_isSome_iff]
      exact ⟨update, List.mem_reverse.mpr hmem, by rw [hsome]; rfl⟩
    obtain ⟨y, hy⟩ := Option.isSome_iff_exists.mp hfound
    obtain ⟨other, hother, hsome'⟩ := List.exists_of_findSome?_eq_some hy
    rw [hy, hagree other (List.mem_reverse.mp hother) update hmem field hfield y x hsome' hsome]

variable [Layered α]

theorem group_foldl_overlay {p : String × (α → Bool)} (hp : p ∈ groups) (current : α)
    (updates : List α) :
    p.2 (updates.foldl overlay current) = (p.2 current || updates.any p.2) := by
  induction updates generalizing current with
  | nil => simp
  | cons update updates ih =>
    rw [List.foldl_cons, ih, group_overlay p hp, List.any_cons, Bool.or_assoc]

theorem mark_foldl_overlay (current : α) (updates : List α) :
    mark (updates.foldl overlay current) = mark current := by
  induction updates generalizing current with
  | nil => rfl
  | cons update updates ih => rw [List.foldl_cons, ih, mark_overlay]

/-- Updates may be folded before they are laid over a state. -/
theorem foldl_overlay (current update : α) (updates : List α) :
    (update :: updates).foldl overlay current = overlay current (updates.foldl overlay update) := by
  rw [List.foldl_cons]
  induction updates generalizing update with
  | nil => rfl
  | cons next updates ih => rw [List.foldl_cons, List.foldl_cons, overlay_assoc, ih]

/-- Updates that agree make the same of a state in any order and with any copies. -/
theorem foldl_overlay_congr (current : α) {updates updates' : List α}
    (hagree : ∀ b ∈ updates, ∀ c ∈ updates, Agree b c)
    (hmem : ∀ update, update ∈ updates ↔ update ∈ updates') :
    updates.foldl overlay current = updates'.foldl overlay current := by
  have hagree' : ∀ b ∈ updates', ∀ c ∈ updates', Agree b c := fun b hb c hc =>
    hagree b ((hmem b).mpr hb) c ((hmem c).mpr hc)
  refine eq_of_fields (fun field hfield => ?_) (fun p hp => ?_) ?_
  · rw [field_foldl_overlay hfield, field_foldl_overlay hfield]
    congr 1
    ext x
    rw [findSome?_eq_some_iff hagree hfield, findSome?_eq_some_iff hagree' hfield]
    exact exists_congr fun update => and_congr_left fun _ => hmem update
  · rw [group_foldl_overlay hp, group_foldl_overlay hp, Bool.eq_iff_iff]
    simp only [Bool.or_eq_true, List.any_eq_true, hmem]
  · rw [mark_foldl_overlay, mark_foldl_overlay]

/-! ## Snapshots -/

namespace Snapshot

variable (s : Snapshot α) (id : String) (tracked : List Category)

/-- A batch of updates leaves the same current values as the update that they fold into. -/
theorem current_mergeAll_eq_merge (update : Update α) (updates : List (Update α))
    (mergedAt : Instant) :
    (s.mergeAll id tracked (update :: updates)).1.current
      = (s.merge id ((updates.map Update.values).foldl overlay update.values) tracked
          mergedAt).1.current := by
  rw [current_mergeAll, List.map_cons, foldl_overlay]
  rfl

/-- Updates that agree leave the same current values in any order and with any copies. -/
theorem current_mergeAll_congr {updates updates' : List (Update α)}
    (hagree : ∀ b ∈ updates.map Update.values, ∀ c ∈ updates.map Update.values, Agree b c)
    (hmem : ∀ values, values ∈ updates.map Update.values ↔ values ∈ updates'.map Update.values) :
    (s.mergeAll id tracked updates).1.current = (s.mergeAll id tracked updates').1.current := by
  rw [current_mergeAll, current_mergeAll]
  exact foldl_overlay_congr s.current hagree hmem

end Snapshot

end Folds

/-- What overlays of a type of states do. -/
structure OverlayLaws (α : Type) [Mergeable α] [Fielded α] [Layered α] : Prop where
  /-- Every written field of an overlay is that of the update, or else that of the state. -/
  field : ∀ p ∈ named, ∀ a b : α,
    (Json.ofRecord (overlay a b)).at? p.1 = (p.2 (overlay a b)).map Leaf.json
      ∧ p.2 (overlay a b) = (p.2 b).or (p.2 a)
  /-- A group is written when it is in the update or in the state. -/
  group : ∀ p ∈ groups, ∀ a b : α,
    ((Json.ofRecord (overlay a b)).member? p.1).isSome = p.2 (overlay a b)
      ∧ p.2 (overlay a b) = (p.2 a || p.2 b)
  /-- What is not written stays. -/
  mark : ∀ a b : α, mark (overlay a b) = mark a
  /-- These are all parts of a value. -/
  complete : ∀ a b : α, (∀ p ∈ named, p.2 a = p.2 b) → (∀ p ∈ groups, p.2 a = p.2 b) →
    Layered.mark a = Layered.mark b → a = b
  /-- Overlays are associative. -/
  assoc : ∀ a b c : α, overlay (overlay a b) c = overlay a (overlay b c)
  /-- The same update once more changes nothing. -/
  idem : ∀ a b : α, overlay (overlay a b) b = overlay a b
  /-- An update that says nothing changes nothing. -/
  default : ∀ a : α, overlay a default = a
  /-- Updates that agree may change places. -/
  right_comm : ∀ a b c : α, Agree b c → overlay (overlay a b) c = overlay (overlay a c) b
  /-- A batch of updates may be folded first and merged once. -/
  batch : ∀ (s : Snapshot α) (id : String) (tracked : List Category) (update : Update α)
    (updates : List (Update α)) (mergedAt : Instant),
    (s.mergeAll id tracked (update :: updates)).1.current
      = (s.merge id ((updates.map Update.values).foldl overlay update.values) tracked
          mergedAt).1.current
  /-- Copies and other orders of updates that agree leave the same current values. -/
  copies : ∀ (s : Snapshot α) (id : String) (tracked : List Category)
    (updates updates' : List (Update α)),
    (∀ b ∈ updates.map Update.values, ∀ c ∈ updates.map Update.values, Agree b c) →
    (∀ values, values ∈ updates.map Update.values ↔ values ∈ updates'.map Update.values) →
    (s.mergeAll id tracked updates).1.current = (s.mergeAll id tracked updates').1.current

theorem OverlayLaws.of_layered (α : Type) [Mergeable α] [Fielded α] [Layered α] :
    OverlayLaws α where
  field p hp a b := by
    have hfield : p.2 ∈ fields := by
      rw [← Layered.map_named]
      exact List.mem_map_of_mem hp
    exact ⟨Layered.at?_named p hp _, field_overlay p.2 hfield a b⟩
  group p hp a b := ⟨Layered.member?_groups p hp _, group_overlay p hp a b⟩
  mark := mark_overlay
  complete a b hfields := by
    have hall : ∀ field ∈ fields, field a = field b := by
      rw [← Layered.map_named, List.forall_mem_map]
      exact hfields
    exact eq_of_fields hall
  assoc := overlay_assoc
  idem := overlay_overlay
  default := overlay_default
  right_comm a _ _ := overlay_right_comm a
  batch := Snapshot.current_mergeAll_eq_merge
  copies s id tracked _ _ := s.current_mergeAll_congr id tracked

/-- Overlays of the states of devices, gateways and collectors set written fields one by one, and
are associative. The same update once more and one that says nothing change nothing, and updates
that agree on the fields that they share may change places. So updates may be folded before they
are merged, and those that agree may come in any order and more than once. -/
theorem overlay_laws :
    OverlayLaws SensorRecord ∧ OverlayLaws GatewayStatus ∧ OverlayLaws ServerStatus :=
  ⟨.of_layered _, .of_layered _, .of_layered _⟩

example : (named : List (_ × (SensorRecord → _))).length = 33
    ∧ (named : List (_ × (GatewayStatus → _))).length = 7
    ∧ (named : List (_ × (ServerStatus → _))).length = 6 := ⟨rfl, rfl, rfl⟩

end FieldTelemetry.Store
