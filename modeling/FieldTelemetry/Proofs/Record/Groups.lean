import FieldTelemetry.Proofs.Json.Record
import FieldTelemetry.Record.SensorRecord

/-!
# Sensor records read back

The groups of a sensor record and the record itself are read back from their objects when their
numbers survive. The mark of an approximated record is not written, so only a record without it is
read back as it was.

## Main results

* `Lossless` for `Location`, `Environment`, `Battery`, `Geiger`, `Particulate`, `Reception`,
  `ServiceInfo` and `SensorRecord`
-/

namespace FieldTelemetry

open Json (KeptSlot Lossless keptSlot_single keptSlot_int32 keptSlot_uint32 keptSlot_uint64
  keptSlot_text keptSlot_instant keptSlot_record)
open Json.Lossless (optionNumbers)

/-! ## Groups -/

instance : Lossless Location where
  numbers x := [x.lat, x.lon].reduceOption
  Complete _ := True
  height := 0
  nodup := by decide
  length_values _ := rfl
  fits x h _ value hvalue := by
    have hall : List.Forall (Json.Fits 0) (Json.Record.values x) :=
      ⟨(keptSlot_single h (by simp)).fits le_rfl, (keptSlot_single h (by simp)).fits le_rfl,
        (keptSlot_int32 _).fits le_rfl⟩
    exact List.forall_iff_forall_mem.mp hall value hvalue
  ofValues?_values x h _ := by
    simp only [Json.Record.values, Json.Record.ofValues?,
      (keptSlot_single h (x := x.lat) (by simp)).optional?,
      (keptSlot_single h (x := x.lon) (by simp)).optional?, (keptSlot_int32 _).optional?]
    rfl
  complete_of_ofValues? _ _ _ := trivial

instance : Lossless Environment where
  numbers x := [x.temp, x.humid, x.press].reduceOption
  Complete _ := True
  height := 0
  nodup := by decide
  length_values _ := rfl
  fits x h _ value hvalue := by
    have hall : List.Forall (Json.Fits 0) (Json.Record.values x) :=
      ⟨(keptSlot_single h (by simp)).fits le_rfl, (keptSlot_single h (by simp)).fits le_rfl,
        (keptSlot_single h (by simp)).fits le_rfl⟩
    exact List.forall_iff_forall_mem.mp hall value hvalue
  ofValues?_values x h _ := by
    simp only [Json.Record.values, Json.Record.ofValues?,
      (keptSlot_single h (x := x.temp) (by simp)).optional?,
      (keptSlot_single h (x := x.humid) (by simp)).optional?,
      (keptSlot_single h (x := x.press) (by simp)).optional?]
    rfl
  complete_of_ofValues? _ _ _ := trivial

instance : Lossless Battery where
  numbers x := [x.voltage, x.soc, x.current].reduceOption
  Complete _ := True
  height := 0
  nodup := by decide
  length_values _ := rfl
  fits x h _ value hvalue := by
    have hall : List.Forall (Json.Fits 0) (Json.Record.values x) :=
      ⟨(keptSlot_single h (by simp)).fits le_rfl, (keptSlot_single h (by simp)).fits le_rfl,
        (keptSlot_single h (by simp)).fits le_rfl⟩
    exact List.forall_iff_forall_mem.mp hall value hvalue
  ofValues?_values x h _ := by
    simp only [Json.Record.values, Json.Record.ofValues?,
      (keptSlot_single h (x := x.voltage) (by simp)).optional?,
      (keptSlot_single h (x := x.soc) (by simp)).optional?,
      (keptSlot_single h (x := x.current) (by simp)).optional?]
    rfl
  complete_of_ofValues? _ _ _ := trivial

instance : Lossless Geiger where
  numbers _ := []
  Complete _ := True
  height := 0
  nodup := by decide
  length_values _ := rfl
  fits x _ _ value hvalue := by
    have hall : List.Forall (Json.Fits 0) (Json.Record.values x) :=
      ⟨(keptSlot_uint32 _).fits le_rfl, (keptSlot_uint32 _).fits le_rfl⟩
    exact List.forall_iff_forall_mem.mp hall value hvalue
  ofValues?_values x _ _ := by
    simp only [Json.Record.values, Json.Record.ofValues?, (keptSlot_uint32 _).optional?]
    rfl
  complete_of_ofValues? _ _ _ := trivial

instance : Lossless Particulate where
  numbers x := [x.pm01_0, x.pm02_5, x.pm10_0].reduceOption
  Complete _ := True
  height := 0
  nodup := by decide
  length_values _ := rfl
  fits x h _ value hvalue := by
    have hall : List.Forall (Json.Fits 0) (Json.Record.values x) :=
      ⟨(keptSlot_single h (by simp)).fits le_rfl, (keptSlot_single h (by simp)).fits le_rfl,
        (keptSlot_single h (by simp)).fits le_rfl, (keptSlot_uint32 _).fits le_rfl⟩
    exact List.forall_iff_forall_mem.mp hall value hvalue
  ofValues?_values x h _ := by
    simp only [Json.Record.values, Json.Record.ofValues?,
      (keptSlot_single h (x := x.pm01_0) (by simp)).optional?,
      (keptSlot_single h (x := x.pm02_5) (by simp)).optional?,
      (keptSlot_single h (x := x.pm10_0) (by simp)).optional?, (keptSlot_uint32 _).optional?]
    rfl
  complete_of_ofValues? _ _ _ := trivial

instance : Lossless Reception where
  numbers x := [x.lat, x.lon, x.snr].reduceOption
  Complete _ := True
  height := 0
  nodup := by decide
  length_values _ := rfl
  fits x h _ value hvalue := by
    have hall : List.Forall (Json.Fits 0) (Json.Record.values x) :=
      ⟨(keptSlot_text _).fits le_rfl, (keptSlot_single h (by simp)).fits le_rfl,
        (keptSlot_single h (by simp)).fits le_rfl, (keptSlot_int32 _).fits le_rfl,
        (keptSlot_single h (by simp)).fits le_rfl, (keptSlot_text _).fits le_rfl⟩
    exact List.forall_iff_forall_mem.mp hall value hvalue
  ofValues?_values x h _ := by
    simp only [Json.Record.values, Json.Record.ofValues?, (keptSlot_text _).optional?,
      (keptSlot_single h (x := x.lat) (by simp)).optional?,
      (keptSlot_single h (x := x.lon) (by simp)).optional?, (keptSlot_int32 _).optional?,
      (keptSlot_single h (x := x.snr) (by simp)).optional?]
    rfl
  complete_of_ofValues? _ _ _ := trivial

instance : Lossless ServiceInfo where
  numbers _ := []
  Complete _ := True
  height := 0
  nodup := by decide
  length_values _ := rfl
  fits x _ _ value hvalue := by
    have hall : List.Forall (Json.Fits 0) (Json.Record.values x) :=
      ⟨(keptSlot_instant _).fits le_rfl, (keptSlot_text _).fits le_rfl,
        (keptSlot_text _).fits le_rfl, (keptSlot_uint64 _).fits le_rfl⟩
    exact List.forall_iff_forall_mem.mp hall value hvalue
  ofValues?_values x _ _ := by
    simp only [Json.Record.values, Json.Record.ofValues?, (keptSlot_instant _).optional?,
      (keptSlot_text _).optional?, (keptSlot_uint64 _).optional?]
    rfl
  complete_of_ofValues? _ _ _ := trivial

/-! ## Records -/

namespace SensorRecord

/-- The numbers of the groups of a record. -/
def groupNumbers (x : SensorRecord) : List (List Binary32) :=
  [optionNumbers x.location, optionNumbers x.environment, optionNumbers x.battery,
    optionNumbers x.geiger, optionNumbers x.pms, optionNumbers x.opc, optionNumbers x.gateway,
    optionNumbers x.service]

/-- A group among those of a record whose numbers survive is kept. -/
theorem keptSlot_group {α : Type} [Json.Record α] [Lossless α] {x : SensorRecord}
    (h : ∀ n ∈ x.groupNumbers.flatten, n.Survives) (group : Option α)
    (hgroup : optionNumbers group ∈ x.groupNumbers)
    (hcomplete : ∀ a ∈ group, Lossless.Complete a) :
    KeptSlot Json.record? Json.ofRecord (Lossless.height α + 1) group := by
  apply keptSlot_record
  · intro n hn
    exact h n (List.mem_flatten_of_mem hgroup hn)
  · exact hcomplete

end SensorRecord

open SensorRecord (keptSlot_group groupNumbers)

instance : Lossless SensorRecord where
  numbers x := x.groupNumbers.flatten
  Complete x := x.approximated = false
  height := 1
  nodup := by decide
  length_values _ := rfl
  fits x h _ value hvalue := by
    have hall : List.Forall (Json.Fits 1) (Json.Record.values x) :=
      ⟨(keptSlot_uint32 _).fits zero_le_one, (keptSlot_text _).fits zero_le_one,
        (keptSlot_text _).fits zero_le_one, (keptSlot_instant _).fits zero_le_one,
        (keptSlot_group h _ (by simp [groupNumbers]) fun _ _ => trivial).fits le_rfl,
        (keptSlot_group h _ (by simp [groupNumbers]) fun _ _ => trivial).fits le_rfl,
        (keptSlot_group h _ (by simp [groupNumbers]) fun _ _ => trivial).fits le_rfl,
        (keptSlot_group h _ (by simp [groupNumbers]) fun _ _ => trivial).fits le_rfl,
        (keptSlot_group h _ (by simp [groupNumbers]) fun _ _ => trivial).fits le_rfl,
        (keptSlot_group h _ (by simp [groupNumbers]) fun _ _ => trivial).fits le_rfl,
        (keptSlot_group h _ (by simp [groupNumbers]) fun _ _ => trivial).fits le_rfl,
        (keptSlot_group h _ (by simp [groupNumbers]) fun _ _ => trivial).fits le_rfl⟩
    exact List.forall_iff_forall_mem.mp hall value hvalue
  ofValues?_values x h hcomplete := by
    simp only [Json.Record.values, Json.Record.ofValues?, (keptSlot_uint32 _).optional?,
      (keptSlot_text _).optional?, (keptSlot_instant _).optional?,
      (keptSlot_group h x.location (by simp [groupNumbers]) fun _ _ => trivial).optional?,
      (keptSlot_group h x.environment (by simp [groupNumbers]) fun _ _ => trivial).optional?,
      (keptSlot_group h x.battery (by simp [groupNumbers]) fun _ _ => trivial).optional?,
      (keptSlot_group h x.geiger (by simp [groupNumbers]) fun _ _ => trivial).optional?,
      (keptSlot_group h x.pms (by simp [groupNumbers]) fun _ _ => trivial).optional?,
      (keptSlot_group h x.opc (by simp [groupNumbers]) fun _ _ => trivial).optional?,
      (keptSlot_group h x.gateway (by simp [groupNumbers]) fun _ _ => trivial).optional?,
      (keptSlot_group h x.service (by simp [groupNumbers]) fun _ _ => trivial).optional?]
    exact congrArg some (by rw [← hcomplete])
  complete_of_ofValues? values x h := by
    simp only [Json.Record.ofValues?] at h
    split at h
    · simp only [Option.bind_eq_bind, Option.bind_eq_some_iff] at h
      obtain ⟨-, -, -, -, -, -, -, -, -, -, -, -, -, -, -, -, -, -, -, -, -, -, -, -, ⟨⟩⟩ := h
      rfl
    · cases h

end FieldTelemetry
