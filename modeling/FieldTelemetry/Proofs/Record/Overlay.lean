import FieldTelemetry.Proofs.Record.Groups

/-!
# Numbers under updates

A state under an update has no numbers but those of the state and of the update, and the values of a
category are among those of the state.

## Main results

* `SensorRecord.mem_numbers_overlay`: the numbers of a record under an update
* `SensorRecord.mem_numbers_project`: the numbers of one category of a record
-/

namespace FieldTelemetry

open Json (Lossless)
open Json.Lossless (numbers optionNumbers mem_optionNumbers)

variable {n : Binary32}

/-! ## Groups -/

theorem mem_reduceOption_or (current update : List (Option Binary32))
    (h : n ∈ (List.zipWith Option.or update current).reduceOption) :
    n ∈ current.reduceOption ∨ n ∈ update.reduceOption := by
  simp only [List.reduceOption_mem_iff] at h ⊢
  induction current generalizing update with
  | nil => cases update <;> simp at h
  | cons x current ih =>
    cases update with
    | nil => simp at h
    | cons y update =>
      rw [List.zipWith_cons_cons, List.mem_cons] at h
      rcases h with hhead | htail
      · cases y with
        | none => exact .inl (hhead ▸ List.mem_cons_self)
        | some m => exact .inr (hhead ▸ List.mem_cons_self)
      · rcases ih update htail with hx | hy
        · exact .inl (List.mem_cons_of_mem _ hx)
        · exact .inr (List.mem_cons_of_mem _ hy)

theorem mem_numbers_overlayGroup {α : Type} [Json.Record α] [Lossless α] [Overlay α]
    (hoverlay : ∀ {a b : α}, n ∈ numbers (Overlay.overlay a b) → n ∈ numbers a ∨ n ∈ numbers b)
    {current update : Option α} (h : n ∈ optionNumbers (overlayGroup current update)) :
    n ∈ optionNumbers current ∨ n ∈ optionNumbers update := by
  cases current with
  | none => cases update <;> exact .inr h
  | some a =>
    cases update with
    | none => exact .inl h
    | some b => exact hoverlay h

theorem Location.mem_numbers_overlay {a b : Location} (h : n ∈ numbers (Overlay.overlay a b)) :
    n ∈ numbers a ∨ n ∈ numbers b :=
  mem_reduceOption_or [a.lat, a.lon] [b.lat, b.lon] h

theorem Environment.mem_numbers_overlay {a b : Environment}
    (h : n ∈ numbers (Overlay.overlay a b)) : n ∈ numbers a ∨ n ∈ numbers b :=
  mem_reduceOption_or [a.temp, a.humid, a.press] [b.temp, b.humid, b.press] h

theorem Battery.mem_numbers_overlay {a b : Battery} (h : n ∈ numbers (Overlay.overlay a b)) :
    n ∈ numbers a ∨ n ∈ numbers b :=
  mem_reduceOption_or [a.voltage, a.soc, a.current] [b.voltage, b.soc, b.current] h

theorem Particulate.mem_numbers_overlay {a b : Particulate}
    (h : n ∈ numbers (Overlay.overlay a b)) : n ∈ numbers a ∨ n ∈ numbers b :=
  mem_reduceOption_or [a.pm01_0, a.pm02_5, a.pm10_0] [b.pm01_0, b.pm02_5, b.pm10_0] h

theorem Reception.mem_numbers_overlay {a b : Reception} (h : n ∈ numbers (Overlay.overlay a b)) :
    n ∈ numbers a ∨ n ∈ numbers b :=
  mem_reduceOption_or [a.lat, a.lon, a.snr] [b.lat, b.lon, b.snr] h

/-! ## Records -/

namespace SensorRecord

theorem mem_numbers_iff {record : SensorRecord} :
    n ∈ numbers record ↔ ∃ part ∈ record.groupNumbers, n ∈ part := List.mem_flatten

theorem mem_numbers_overlay {a b : SensorRecord} (h : n ∈ numbers (Overlay.overlay a b)) :
    n ∈ numbers a ∨ n ∈ numbers b := by
  obtain ⟨part, hpart, hn⟩ := mem_numbers_iff.mp h
  -- The number is in one group, and there it comes from the same group of one of the two.
  have hfrom {α : Type} [Json.Record α] [Lossless α] [Overlay α] {x y : Option α}
      (hoverlay : ∀ {a b : α}, n ∈ numbers (Overlay.overlay a b) → n ∈ numbers a ∨ n ∈ numbers b)
      (hx : optionNumbers x ∈ a.groupNumbers) (hy : optionNumbers y ∈ b.groupNumbers)
      (heq : part = optionNumbers (overlayGroup x y)) : n ∈ numbers a ∨ n ∈ numbers b := by
    subst heq
    rcases mem_numbers_overlayGroup hoverlay hn with hcurrent | hupdate
    · exact .inl (mem_numbers_iff.mpr ⟨_, hx, hcurrent⟩)
    · exact .inr (mem_numbers_iff.mpr ⟨_, hy, hupdate⟩)
  simp only [groupNumbers, Overlay.overlay, List.mem_cons, List.not_mem_nil, or_false] at hpart
  rcases hpart with hpart | hpart | hpart | hpart | hpart | hpart | hpart | hpart
  · exact hfrom Location.mem_numbers_overlay (by simp [groupNumbers]) (by simp [groupNumbers]) hpart
  · exact hfrom Environment.mem_numbers_overlay (by simp [groupNumbers]) (by simp [groupNumbers])
      hpart
  · exact hfrom Battery.mem_numbers_overlay (by simp [groupNumbers]) (by simp [groupNumbers]) hpart
  · exact hfrom (α := Geiger) .inl (by simp [groupNumbers]) (by simp [groupNumbers]) hpart
  · exact hfrom Particulate.mem_numbers_overlay (by simp [groupNumbers]) (by simp [groupNumbers])
      hpart
  · exact hfrom Particulate.mem_numbers_overlay (by simp [groupNumbers]) (by simp [groupNumbers])
      hpart
  · exact hfrom Reception.mem_numbers_overlay (by simp [groupNumbers]) (by simp [groupNumbers])
      hpart
  · exact hfrom (α := ServiceInfo) .inl (by simp [groupNumbers]) (by simp [groupNumbers]) hpart

theorem mem_numbers_project {record : SensorRecord} {category : Category}
    (h : n ∈ numbers (record.project category)) : n ∈ numbers record := by
  obtain ⟨part, hpart, hn⟩ := mem_numbers_iff.mp h
  have hne : part ≠ [] := List.ne_nil_of_mem hn
  have hempty {α : Type} [Json.Record α] [Lossless α] : optionNumbers (none : Option α) = [] := rfl
  refine mem_numbers_iff.mpr ⟨part, ?_, hn⟩
  -- All groups but the one of the category are absent and have no numbers.
  cases category <;>
    simp only [project, groupNumbers, hempty, List.mem_cons, List.not_mem_nil, or_false, false_or,
      hne] at hpart <;>
    simp only [groupNumbers, hpart, List.mem_cons, true_or, or_true]

end SensorRecord

end FieldTelemetry
