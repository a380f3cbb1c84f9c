import FieldTelemetry.Proofs.Record.Alike
import FieldTelemetry.Proofs.Record.Leaves
import FieldTelemetry.Proofs.Record.Overlay
import FieldTelemetry.Proofs.Record.Readable

/-!
# Updates of what was read

After an update was merged, written and read again, the same update once more gives the values of
the first merge. It counts as a change if and only if it has a number that is not read as the same
number.

## Main definitions

* `Binary32.Stays`: a number that is read as the same number
* `Rereadable`: the groups for which this holds

## Main results

* `overlayGroup_reread`, `alike_overlayGroup_reread`: optional groups under an update once more
* `SensorRecord.overlay_reread`, `SensorRecord.alike_project_iff`: sensor records
-/

namespace FieldTelemetry

open Json (Lossless Readable reread)
open Json.Lossless (numbers optionNumbers mem_optionNumbers)

/-! ## Numbers -/

/-- From the JSON text of a number the same number is read. -/
def Binary32.Stays (x : Binary32) : Prop := sameNumber (some x) x.reread? = true

instance (x : Binary32) : Decidable x.Stays := by
  unfold Binary32.Stays; infer_instance

theorem Binary32.Survives.reread? {x : Binary32} (h : x.Survives) : x.reread? = some x :=
  (survives_iff x).mp h

section Options

variable {current update : Option Binary32}

theorem or_bind_reread? (h : ∀ n ∈ current, n.Survives) :
    update.or ((update.or current).bind Binary32.reread?) = update.or current := by
  cases update with
  | some n => rfl
  | none =>
    cases current with
    | none => rfl
    | some n => exact (h n rfl).reread?

theorem sameNumber_or_bind_reread? :
    sameNumber (update.or ((update.or current).bind Binary32.reread?))
        ((update.or current).bind Binary32.reread?) = true
      ↔ ∀ n ∈ update, n.Stays := by
  cases update with
  | some n => simp [Binary32.Stays]
  | none =>
    -- What was read has no NaN, and is compared with itself.
    refine iff_of_true (Binary32.equivalenceOn_alike.option.self fun n hn => ?_) (by simp)
    obtain ⟨m, -, hread⟩ := Option.bind_eq_some_iff.mp hn
    exact Binary32.isNaN_reread? hread

theorem forall_mem_reduceOption {parts : List (Option Binary32)} {P : Binary32 → Prop} :
    (∀ n ∈ parts.reduceOption, P n) ↔ ∀ part ∈ parts, ∀ n ∈ part, P n := by
  simp only [List.reduceOption_mem_iff]
  exact ⟨fun h part hpart n hn => h n (hn ▸ hpart), fun h n hn => h _ hn n rfl⟩

end Options

/-! ## Groups -/

/-- The groups that an update, once it was merged, written and read again, leaves as they were. -/
class Rereadable (α : Type) [Json.Record α] [Lossless α] [Readable α] [Overlay α] [Alike α]
    [Inhabited α] : Prop where
  /-- The group without values has no numbers. -/
  numbers_default : numbers (default : α) = []
  /-- Over the group without values an update is all there is. -/
  default_overlay : ∀ update : α, Overlay.overlay default update = update
  /-- The update without values leaves a group as it is. -/
  overlay_default : ∀ current : α, Overlay.overlay current default = current
  /-- The same update once more gives the same values. -/
  overlay_reread : ∀ {current update : α}, (∀ n ∈ numbers current, n.Survives) →
    Overlay.overlay (reread (Overlay.overlay current update)) update
      = Overlay.overlay current update
  /-- It counts as a change if and only if one of its numbers does not stay. -/
  alike_reread : ∀ current update : α,
    Alike.alike (Overlay.overlay (reread (Overlay.overlay current update)) update)
        (reread (Overlay.overlay current update)) = true
      ↔ ∀ n ∈ numbers update, n.Stays

instance : Rereadable Location where
  numbers_default := rfl
  default_overlay update := by
    have hdefault : (default : Location) = {} := rfl
    simp only [Overlay.overlay, hdefault, Option.or_none]
  overlay_default _ := rfl
  overlay_reread h := by
    simp only [numbers, forall_mem_reduceOption, List.forall_mem_cons] at h
    obtain ⟨hlat, hlon, -⟩ := h
    simp only [Overlay.overlay, reread, or_bind_reread? hlat, or_bind_reread? hlon, or_or_self]
  alike_reread current update := by
    simp [Overlay.overlay, reread, Alike.alike, numbers, sameNumber_or_bind_reread?, or_or_self,
      forall_mem_reduceOption]

instance : Rereadable Environment where
  numbers_default := rfl
  default_overlay update := by
    have hdefault : (default : Environment) = {} := rfl
    simp only [Overlay.overlay, hdefault, Option.or_none]
  overlay_default _ := rfl
  overlay_reread h := by
    simp only [numbers, forall_mem_reduceOption, List.forall_mem_cons] at h
    obtain ⟨htemp, hhumid, hpress, -⟩ := h
    simp only [Overlay.overlay, reread, or_bind_reread? htemp, or_bind_reread? hhumid,
      or_bind_reread? hpress]
  alike_reread current update := by
    simp [Overlay.overlay, reread, Alike.alike, numbers, sameNumber_or_bind_reread?,
      forall_mem_reduceOption, and_assoc]

instance : Rereadable Battery where
  numbers_default := rfl
  default_overlay update := by
    have hdefault : (default : Battery) = {} := rfl
    simp only [Overlay.overlay, hdefault, Option.or_none]
  overlay_default _ := rfl
  overlay_reread h := by
    simp only [numbers, forall_mem_reduceOption, List.forall_mem_cons] at h
    obtain ⟨hvoltage, hsoc, hcurrent, -⟩ := h
    simp only [Overlay.overlay, reread, or_bind_reread? hvoltage, or_bind_reread? hsoc,
      or_bind_reread? hcurrent]
  alike_reread current update := by
    simp [Overlay.overlay, reread, Alike.alike, numbers, sameNumber_or_bind_reread?,
      forall_mem_reduceOption, and_assoc]

instance : Rereadable Geiger where
  numbers_default := rfl
  default_overlay update := by
    have hdefault : (default : Geiger) = {} := rfl
    simp only [Overlay.overlay, hdefault, Option.or_none]
  overlay_default _ := rfl
  overlay_reread _ := overlay_overlay _ _
  alike_reread current update := by
    simp [Overlay.overlay, reread, Alike.alike, numbers, or_or_self]

instance : Rereadable Particulate where
  numbers_default := rfl
  default_overlay update := by
    have hdefault : (default : Particulate) = {} := rfl
    simp only [Overlay.overlay, hdefault, Option.or_none]
  overlay_default _ := rfl
  overlay_reread h := by
    simp only [numbers, forall_mem_reduceOption, List.forall_mem_cons] at h
    obtain ⟨hpm01_0, hpm02_5, hpm10_0, -⟩ := h
    simp only [Overlay.overlay, reread, or_bind_reread? hpm01_0, or_bind_reread? hpm02_5,
      or_bind_reread? hpm10_0, or_or_self]
  alike_reread current update := by
    simp [Overlay.overlay, reread, Alike.alike, numbers, sameNumber_or_bind_reread?, or_or_self,
      forall_mem_reduceOption, and_assoc]

instance : Rereadable Reception where
  numbers_default := rfl
  default_overlay update := by
    have hdefault : (default : Reception) = {} := rfl
    simp only [Overlay.overlay, hdefault, Option.or_none]
  overlay_default _ := rfl
  overlay_reread h := by
    simp only [numbers, forall_mem_reduceOption, List.forall_mem_cons] at h
    obtain ⟨hlat, hlon, hsnr, -⟩ := h
    simp only [Overlay.overlay, reread, or_bind_reread? hlat, or_bind_reread? hlon,
      or_bind_reread? hsnr, or_or_self]
  alike_reread current update := by
    simp [Overlay.overlay, reread, Alike.alike, numbers, sameNumber_or_bind_reread?, or_or_self,
      forall_mem_reduceOption, and_assoc]

instance : Rereadable ServiceInfo where
  numbers_default := rfl
  default_overlay update := by
    have hdefault : (default : ServiceInfo) = {} := rfl
    simp only [Overlay.overlay, hdefault, Option.or_none]
  overlay_default _ := rfl
  overlay_reread _ := overlay_overlay _ _
  alike_reread current update := by
    simp [Overlay.overlay, reread, Alike.alike, numbers, or_or_self]

/-! ### Optional groups -/

section OptionalGroups

variable {α : Type} [Json.Record α] [Lossless α] [Readable α] [Overlay α] [Alike α] [Inhabited α]
  [Rereadable α] {current update : Option α}

/-- An optional group under an update, with the groups without values for absent ones. -/
theorem overlayGroup_cases (current update : Option α) :
    (current = none ∧ update = none)
      ∨ ∃ a b, overlayGroup current update = some (Overlay.overlay a b)
        ∧ (∀ c, overlayGroup (some c) update = some (Overlay.overlay c b))
        ∧ numbers a = optionNumbers current ∧ numbers b = optionNumbers update := by
  cases current with
  | none =>
    cases update with
    | none => exact .inl ⟨rfl, rfl⟩
    | some b =>
      refine .inr ⟨default, b, ?_, fun _ => rfl, Rereadable.numbers_default, rfl⟩
      exact congrArg some (Rereadable.default_overlay b).symm
  | some a =>
    cases update with
    | none =>
      refine .inr ⟨a, default, ?_, fun c => ?_, rfl, Rereadable.numbers_default⟩
      · exact congrArg some (Rereadable.overlay_default a).symm
      · exact congrArg some (Rereadable.overlay_default c).symm
    | some b => exact .inr ⟨a, b, rfl, fun _ => rfl, rfl, rfl⟩

/-- The same update of an optional group once more gives the same values. -/
theorem overlayGroup_reread (h : ∀ n ∈ optionNumbers current, n.Survives) :
    overlayGroup ((overlayGroup current update).map reread) update
      = overlayGroup current update := by
  obtain ⟨rfl, rfl⟩ | ⟨a, b, heq, hnext, ha, -⟩ := overlayGroup_cases current update
  · rfl
  · rw [heq, Option.map_some, hnext]
    exact congrArg some (Rereadable.overlay_reread (ha ▸ h))

/-- The same update of an optional group once more counts as a change if and only if one of its
numbers does not stay. -/
theorem alike_overlayGroup_reread :
    Alike.alike (overlayGroup ((overlayGroup current update).map reread) update)
        ((overlayGroup current update).map reread) = true
      ↔ ∀ n ∈ optionNumbers update, n.Stays := by
  obtain ⟨rfl, rfl⟩ | ⟨a, b, heq, hnext, -, hb⟩ := overlayGroup_cases current update
  · exact iff_of_true rfl fun n hn => absurd hn List.not_mem_nil
  · rw [heq, Option.map_some, hnext, ← hb]
    exact Rereadable.alike_reread a b

end OptionalGroups

/-! ## Records -/

namespace SensorRecord

/-- The same update of a record once more gives the same values. -/
theorem overlay_reread {current update : SensorRecord} (h : ∀ n ∈ numbers current, n.Survives)
    (hcomplete : Lossless.Complete current) :
    Overlay.overlay (reread (Overlay.overlay current update)) update
      = Overlay.overlay current update := by
  have hgroup {α : Type} [Json.Record α] [Lossless α] {group : Option α}
      (hgroup : optionNumbers group ∈ current.groupNumbers) :
      ∀ n ∈ optionNumbers group, n.Survives :=
    fun n hn => h n (mem_numbers_iff.mpr ⟨_, hgroup, hn⟩)
  have happroximated : current.approximated = false := hcomplete
  simp only [Overlay.overlay, reread, or_or_self, happroximated, SensorRecord.mk.injEq, true_and,
    and_true]
  refine ⟨?_, ?_, ?_, ?_, ?_, ?_, ?_, ?_⟩ <;>
    exact overlayGroup_reread (hgroup (by simp [groupNumbers]))

/-- The values of a category count as the same when the group of the category does. -/
theorem alike_project (a b : SensorRecord) (category : Category) :
    Alike.alike (a.project category) (b.project category)
      = match category with
        | .location => Alike.alike a.location b.location
        | .geiger => Alike.alike a.geiger b.geiger
        | .pms => Alike.alike a.pms b.pms
        | .opc => Alike.alike a.opc b.opc := by
  cases category <;> simp [project, Alike.alike]

/-- The numbers of a category are those of its group. -/
theorem numbers_project (x : SensorRecord) (category : Category) :
    numbers (x.project category)
      = match category with
        | .location => optionNumbers x.location
        | .geiger => optionNumbers x.geiger
        | .pms => optionNumbers x.pms
        | .opc => optionNumbers x.opc := by
  have hnone {α : Type} [Json.Record α] [Lossless α] : optionNumbers (none : Option α) = [] := rfl
  cases category <;> simp [project, numbers, groupNumbers, hnone]

/-- The values of a category once more count as the same if and only if all numbers that the update
has in it stay. -/
theorem alike_project_iff (current update : SensorRecord) (category : Category) :
    Alike.alike
        ((Overlay.overlay (reread (Overlay.overlay current update)) update).project category)
        ((reread (Overlay.overlay current update)).project category) = true
      ↔ ∀ n ∈ numbers (update.project category), n.Stays := by
  rw [alike_project, numbers_project]
  cases category <;> exact alike_overlayGroup_reread

end SensorRecord

end FieldTelemetry
