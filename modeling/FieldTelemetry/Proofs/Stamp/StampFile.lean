import FieldTelemetry.Proofs.Json.Readable
import FieldTelemetry.Stamp.Cache

/-!
# Stamp files read back

A stamp file of the known version is read from its contents with the latitude and longitude that are
read from their texts, so it is read as it was when both survive.

## Main definitions

* `StampFile.Survives`: a stamp file that is read as it was

## Main results

* `StampFile.ofOctets?_render`: a stamp file from its contents
* `StampFile.Survives.reread_eq`: a stamp file that is read as it was
* `StampFile.version_of_ofOctets?`: only files of the known version are read
-/

namespace FieldTelemetry.Stamp

open Json (Lossless Readable reread fits_single optional?_single keptSlot_single keptSlot_int32
  keptSlot_uint32 kept_uint32 required?_some)
open Wire (Message)

instance : Lossless StampFile where
  numbers x := [x.latitude, x.longitude].reduceOption
  Complete _ := True
  height := 0
  nodup := by decide
  length_values _ := rfl
  fits x h _ value hvalue := by
    have hall : List.Forall (Json.Fits 0) (Json.Record.values x) :=
      ⟨(kept_uint32 _).fits le_rfl, (kept_uint32 _).fits le_rfl,
        (keptSlot_single h (by simp)).fits le_rfl, (keptSlot_single h (by simp)).fits le_rfl,
        (keptSlot_int32 _).fits le_rfl, (keptSlot_uint32 _).fits le_rfl,
        (keptSlot_uint32 _).fits le_rfl⟩
    exact List.forall_iff_forall_mem.mp hall value hvalue
  ofValues?_values x h _ := by
    simp only [Json.Record.values, Json.Record.ofValues?, required?_some (kept_uint32 _),
      (keptSlot_single h (x := x.latitude) (by simp)).optional?,
      (keptSlot_single h (x := x.longitude) (by simp)).optional?, (keptSlot_int32 _).optional?,
      (keptSlot_uint32 _).optional?]
    rfl
  complete_of_ofValues? _ _ _ := trivial

instance : Readable StampFile where
  reread x :=
    { x with
      latitude := x.latitude.bind Binary32.reread?
      longitude := x.longitude.bind Binary32.reread? }
  ofValues?_reread x := by
    simp only [Json.Record.values, Json.Record.ofValues?, required?_some (kept_uint32 _),
      optional?_single, (keptSlot_int32 _).optional?, (keptSlot_uint32 _).optional?]
    rfl
  fits_values x value hvalue := by
    have hall : List.Forall (Json.Fits 0) (Json.Record.values x) :=
      ⟨(kept_uint32 _).fits le_rfl, (kept_uint32 _).fits le_rfl, fits_single _, fits_single _,
        (keptSlot_int32 _).fits le_rfl, (keptSlot_uint32 _).fits le_rfl,
        (keptSlot_uint32 _).fits le_rfl⟩
    exact List.forall_iff_forall_mem.mp hall value hvalue

namespace StampFile

/-- Latitude and longitude are read back from their texts. -/
def Survives (file : StampFile) : Prop :=
  (∀ x ∈ file.latitude, x.Survives) ∧ (∀ x ∈ file.longitude, x.Survives)

/-- A stamp file of the known version is read from its contents. -/
theorem ofOctets?_render {file : StampFile} (hversion : file.version = knownVersion) :
    ofOctets? file.render = some (reread file) := by
  have hread : (Json.ofRecord file).record? = some (reread file) :=
    Json.readsAs_record.read_write file
  rw [ofOctets?, render, Json.parse?_compact (Json.readsAs_record.proper file)]
  simp only [Option.bind_eq_bind, Option.bind_some]
  -- What is read has the version that was written.
  have hknown : (reread file).version = knownVersion := hversion
  rw [hread, Option.bind_some, (Option.guard_eq_some' ()).mpr hknown]
  rfl

/-- A stamp file whose place survives is read as it was. -/
theorem Survives.reread_eq {file : StampFile} (h : file.Survives) : reread file = file := by
  refine Json.reread_eq (fun n hn => ?_) trivial
  have hn' : some n ∈ [file.latitude, file.longitude] := List.reduceOption_mem_iff.mp hn
  simp only [List.mem_cons, List.not_mem_nil, or_false] at hn'
  rcases hn' with hlat | hlon
  · exact h.1 n hlat.symm
  · exact h.2 n hlon.symm

/-- A file that has been read has the known version. -/
theorem version_of_ofOctets? {octets : Octets} {file : StampFile}
    (h : ofOctets? octets = some file) : file.version = knownVersion := by
  rw [ofOctets?] at h
  simp only [Option.bind_eq_bind, Option.bind_eq_some_iff] at h
  obtain ⟨-, -, file', -, ⟨⟩, hguard, heq⟩ := h
  cases heq
  exact (Option.guard_eq_some' _).mp hguard

end StampFile

end FieldTelemetry.Stamp
