import FieldTelemetry.Proofs.Json.Readable
import FieldTelemetry.Proofs.Record.Counters
import FieldTelemetry.Proofs.Record.Groups

/-!
# Sensor records read whatever their numbers

The groups of a sensor record, the record itself and the counters are read from their objects
whatever their numbers are. The mark of an approximated record is not written, so the record that is
read is without it.

## Main results

* `Readable` for the groups, `SensorRecord`, `PipelineCounters` and `QueueCounters`
-/

namespace FieldTelemetry

open Json (Readable reread fits_single fits_record optional?_single optional?_record keptSlot_int32
  keptSlot_uint32 keptSlot_text keptSlot_instant)

/-! ## Groups -/

instance : Readable Location where
  reread x := ⟨x.lat.bind Binary32.reread?, x.lon.bind Binary32.reread?, x.alt⟩
  ofValues?_reread x := by
    simp only [Json.Record.values, Json.Record.ofValues?, optional?_single,
      (keptSlot_int32 _).optional?]
    rfl
  fits_values x value hvalue := by
    have hall : List.Forall (Json.Fits 0) (Json.Record.values x) :=
      ⟨fits_single _, fits_single _, (keptSlot_int32 _).fits le_rfl⟩
    exact List.forall_iff_forall_mem.mp hall value hvalue

instance : Readable Environment where
  reread x :=
    ⟨x.temp.bind Binary32.reread?, x.humid.bind Binary32.reread?, x.press.bind Binary32.reread?⟩
  ofValues?_reread x := by
    simp only [Json.Record.values, Json.Record.ofValues?, optional?_single]
    rfl
  fits_values x value hvalue := by
    have hall : List.Forall (Json.Fits 0) (Json.Record.values x) :=
      ⟨fits_single _, fits_single _, fits_single _⟩
    exact List.forall_iff_forall_mem.mp hall value hvalue

instance : Readable Battery where
  reread x :=
    ⟨x.voltage.bind Binary32.reread?, x.soc.bind Binary32.reread?,
      x.current.bind Binary32.reread?⟩
  ofValues?_reread x := by
    simp only [Json.Record.values, Json.Record.ofValues?, optional?_single]
    rfl
  fits_values x value hvalue := by
    have hall : List.Forall (Json.Fits 0) (Json.Record.values x) :=
      ⟨fits_single _, fits_single _, fits_single _⟩
    exact List.forall_iff_forall_mem.mp hall value hvalue

instance : Readable Geiger where
  reread x := x
  ofValues?_reread x := Json.Lossless.ofValues?_values x (by simp [Json.Lossless.numbers]) trivial
  fits_values x := Json.Lossless.fits x (by simp [Json.Lossless.numbers]) trivial

instance : Readable Particulate where
  reread x :=
    ⟨x.pm01_0.bind Binary32.reread?, x.pm02_5.bind Binary32.reread?,
      x.pm10_0.bind Binary32.reread?, x.csecs⟩
  ofValues?_reread x := by
    simp only [Json.Record.values, Json.Record.ofValues?, optional?_single,
      (keptSlot_uint32 _).optional?]
    rfl
  fits_values x value hvalue := by
    have hall : List.Forall (Json.Fits 0) (Json.Record.values x) :=
      ⟨fits_single _, fits_single _, fits_single _, (keptSlot_uint32 _).fits le_rfl⟩
    exact List.forall_iff_forall_mem.mp hall value hvalue

instance : Readable Reception where
  reread x :=
    ⟨x.id, x.lat.bind Binary32.reread?, x.lon.bind Binary32.reread?, x.alt,
      x.snr.bind Binary32.reread?, x.location⟩
  ofValues?_reread x := by
    simp only [Json.Record.values, Json.Record.ofValues?, optional?_single,
      (keptSlot_text _).optional?, (keptSlot_int32 _).optional?]
    rfl
  fits_values x value hvalue := by
    have hall : List.Forall (Json.Fits 0) (Json.Record.values x) :=
      ⟨(keptSlot_text _).fits le_rfl, fits_single _, fits_single _,
        (keptSlot_int32 _).fits le_rfl, fits_single _, (keptSlot_text _).fits le_rfl⟩
    exact List.forall_iff_forall_mem.mp hall value hvalue

instance : Readable ServiceInfo where
  reread x := x
  ofValues?_reread x := Json.Lossless.ofValues?_values x (by simp [Json.Lossless.numbers]) trivial
  fits_values x := Json.Lossless.fits x (by simp [Json.Lossless.numbers]) trivial

/-! ## Records -/

instance : Readable SensorRecord where
  reread x :=
    { x with
      location := x.location.map reread
      environment := x.environment.map reread
      battery := x.battery.map reread
      geiger := x.geiger.map reread
      pms := x.pms.map reread
      opc := x.opc.map reread
      gateway := x.gateway.map reread
      service := x.service.map reread
      approximated := false }
  ofValues?_reread x := by
    simp only [Json.Record.values, Json.Record.ofValues?, (keptSlot_uint32 _).optional?,
      (keptSlot_text _).optional?, (keptSlot_instant _).optional?, optional?_record]
    rfl
  fits_values x value hvalue := by
    have hall : List.Forall (Json.Fits 1) (Json.Record.values x) :=
      ⟨(keptSlot_uint32 _).fits zero_le_one, (keptSlot_text _).fits zero_le_one,
        (keptSlot_text _).fits zero_le_one, (keptSlot_instant _).fits zero_le_one,
        fits_record _, fits_record _, fits_record _, fits_record _, fits_record _, fits_record _,
        fits_record _, fits_record _⟩
    exact List.forall_iff_forall_mem.mp hall value hvalue

/-! ## Counters -/

instance : Readable PipelineCounters where
  reread x := x
  ofValues?_reread x := Json.Lossless.ofValues?_values x (by simp [Json.Lossless.numbers]) trivial
  fits_values x := Json.Lossless.fits x (by simp [Json.Lossless.numbers]) trivial

instance : Readable QueueCounters where
  reread x := x
  ofValues?_reread x := Json.Lossless.ofValues?_values x (by simp [Json.Lossless.numbers]) trivial
  fits_values x := Json.Lossless.fits x (by simp [Json.Lossless.numbers]) trivial

end FieldTelemetry
