import FieldTelemetry.Proofs.Json.Record
import FieldTelemetry.Record.Counters

/-!
# Counters read back

The counters of a collector are words, so they are read back from their objects as they were.

## Main results

* `Lossless` for `PipelineCounters` and `QueueCounters`
* `keptSlot_pipeline`, `keptSlot_queue`: the slots of counters
-/

namespace FieldTelemetry

open Json (KeptSlot Lossless keptSlot_record kept_uint32 kept_uint64 required?_some)
open Json.Lossless (mem_optionNumbers)

instance : Lossless PipelineCounters where
  numbers _ := []
  Complete _ := True
  height := 0
  nodup := by decide
  length_values _ := rfl
  fits x _ _ value hvalue := by
    have hall : List.Forall (Json.Fits 0) (Json.Record.values x) :=
      ⟨(kept_uint64 _).fits le_rfl, (kept_uint64 _).fits le_rfl, (kept_uint64 _).fits le_rfl,
        (kept_uint64 _).fits le_rfl, (kept_uint64 _).fits le_rfl, (kept_uint64 _).fits le_rfl,
        (kept_uint64 _).fits le_rfl, (kept_uint64 _).fits le_rfl, (kept_uint64 _).fits le_rfl,
        (kept_uint64 _).fits le_rfl⟩
    exact List.forall_iff_forall_mem.mp hall value hvalue
  ofValues?_values x _ _ := by
    simp only [Json.Record.values, Json.Record.ofValues?, required?_some (kept_uint64 _)]
    rfl
  complete_of_ofValues? _ _ _ := trivial

instance : Lossless QueueCounters where
  numbers _ := []
  Complete _ := True
  height := 0
  nodup := by decide
  length_values _ := rfl
  fits x _ _ value hvalue := by
    have hall : List.Forall (Json.Fits 0) (Json.Record.values x) :=
      ⟨(kept_uint64 _).fits le_rfl, (kept_uint64 _).fits le_rfl, (kept_uint64 _).fits le_rfl,
        (kept_uint64 _).fits le_rfl, (kept_uint64 _).fits le_rfl, (kept_uint64 _).fits le_rfl,
        (kept_uint32 _).fits le_rfl⟩
    exact List.forall_iff_forall_mem.mp hall value hvalue
  ofValues?_values x _ _ := by
    simp only [Json.Record.values, Json.Record.ofValues?, required?_some (kept_uint64 _),
      required?_some (kept_uint32 _)]
    rfl
  complete_of_ofValues? _ _ _ := trivial

theorem keptSlot_pipeline (x : Option PipelineCounters) :
    KeptSlot Json.record? Json.ofRecord 1 x := by
  refine keptSlot_record (fun n hn => ?_) fun _ _ => trivial
  obtain ⟨_, -, hn⟩ := mem_optionNumbers.mp hn
  cases hn

theorem keptSlot_queue (x : Option QueueCounters) : KeptSlot Json.record? Json.ofRecord 1 x := by
  refine keptSlot_record (fun n hn => ?_) fun _ _ => trivial
  obtain ⟨_, -, hn⟩ := mem_optionNumbers.mp hn
  cases hn

end FieldTelemetry
