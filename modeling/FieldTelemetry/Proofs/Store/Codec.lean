import FieldTelemetry.Proofs.Record.Readable
import FieldTelemetry.Proofs.Store.Snapshot
import FieldTelemetry.Store.Reconcile

/-!
# Every snapshot can be read

Whatever a snapshot holds, a snapshot is read from the contents that are written for it, so what a
call has written is never refused when it is read again. The snapshot that is read is the one that
was written when its numbers survive.

## Main definitions

* `Snapshot.reread`: the snapshot that is read from the contents of one

## Main results

* `Snapshot.ofOctets?_render_reread`: what is read from the contents of a snapshot
* `Snapshot.codec`: snapshots of all kinds can be read, and are read as they were
-/

namespace FieldTelemetry.Store

open Json (Lossless Readable ReadsAs reread fits_single fits_record optional?_single
  optional?_record keptSlot_int32 keptSlot_text keptSlot_instant kept_text required?_some)
open Json.Lossless (height)
open Time (Instant)

/-! ## States -/

instance : Readable GatewayStatus where
  reread x :=
    ⟨x.lat.bind Binary32.reread?, x.lon.bind Binary32.reread?, x.alt, x.location,
      x.snr.bind Binary32.reread?, x.lastTransport, x.lastSeen⟩
  ofValues?_reread x := by
    simp only [Json.Record.values, Json.Record.ofValues?, optional?_single,
      (keptSlot_int32 _).optional?, (keptSlot_text _).optional?, (keptSlot_instant _).optional?]
    rfl
  fits_values x value hvalue := by
    have hall : List.Forall (Json.Fits 0) (Json.Record.values x) :=
      ⟨fits_single _, fits_single _, (keptSlot_int32 _).fits le_rfl, (keptSlot_text _).fits le_rfl,
        fits_single _, (keptSlot_text _).fits le_rfl, (keptSlot_instant _).fits le_rfl⟩
    exact List.forall_iff_forall_mem.mp hall value hvalue

instance : Readable ServerStatus where
  reread x := x
  ofValues?_reread x := Lossless.ofValues?_values x (by simp [Lossless.numbers]) trivial
  fits_values x := Lossless.fits x (by simp [Lossless.numbers]) trivial

instance : Readable Origin where
  reread x :=
    { x with lat := x.lat.bind Binary32.reread?, lon := x.lon.bind Binary32.reread? }
  ofValues?_reread x := by
    simp only [Json.Record.values, Json.Record.ofValues?, required?_some (kept_text _),
      (keptSlot_text _).optional?, optional?_single]
    rfl
  fits_values x value hvalue := by
    have hall : List.Forall (Json.Fits 0) (Json.Record.values x) :=
      ⟨(kept_text _).fits le_rfl, (keptSlot_text _).fits le_rfl, (keptSlot_text _).fits le_rfl,
        fits_single _, fits_single _⟩
    exact List.forall_iff_forall_mem.mp hall value hvalue

/-! ## Remembered changes -/

variable {α : Type} [Mergeable α] [Lasting α] [Readable α]

/-- The remembered change that is read from what is written for one. -/
def HistoryEntry.reread (entry : HistoryEntry α) : HistoryEntry α :=
  { entry with values := Json.reread entry.values }

theorem readsAs_entry :
    ReadsAs HistoryEntry.ofJson? HistoryEntry.toJson (height α + 1)
      (HistoryEntry.reread : HistoryEntry α → HistoryEntry α) := by
  have hentry (entry : HistoryEntry α) := ofJson?_toJson (Readable.fits_values entry.values)
    (Readable.ofValues?_reread entry.values)
  exact ⟨fun entry => (hentry entry).1, fun entry => ((hentry entry).2 _ rfl).1,
    fun entry => ((hentry entry).2 _ rfl).2⟩

/-- The changes of a category that are read from what is written for them. -/
def History.reread (history : History α) : History α :=
  .ofList (history.entries.map HistoryEntry.reread)

theorem History.entries_reread (history : History α) :
    (History.reread history).entries = history.entries.map HistoryEntry.reread := by
  have hlength : (history.entries.map HistoryEntry.reread).length ≤ historyDepth := by
    rw [List.length_map]
    exact history.length_le
  exact List.take_of_length_le hlength

theorem readsAs_history :
    ReadsAs history? historyJson (height α + 2) (History.reread : History α → History α) := by
  have hitems := readsAs_entry (α := α) |> Json.readsAs_items
  refine ⟨fun history => ?_, fun history => hitems.proper history.entries,
    fun history => hitems.plain history.entries⟩
  have hread : (historyJson history).items? HistoryEntry.ofJson?
      = some (history.entries.map HistoryEntry.reread) := hitems.read_write history.entries
  rw [history?, hread]
  rfl

theorem fits_history (history : History α) :
    Json.Fits (height α + 2) (some (historyJson history)) := by
  rintro json ⟨⟩
  exact ⟨readsAs_history.proper history, readsAs_history.plain history⟩

/-! ## Snapshots -/

namespace Snapshot

theorem default?_historyJson (history : History α) :
    Json.default? .empty history? (some (historyJson history)) = some (History.reread history) :=
  readsAs_history.read_write history

instance : Readable (Snapshot α) where
  reread s :=
    { current := reread s.current
      location := History.reread s.location
      geiger := History.reread s.geiger
      pms := History.reread s.pms
      opc := History.reread s.opc
      origin := s.origin.map reread
      updatedAt := s.updatedAt }
  ofValues?_reread s := by
    have hcurrent : Json.default? default Json.record? (some (Json.ofRecord s.current))
        = some (reread s.current) := Json.readsAs_record.read_write s.current
    simp only [Json.Record.values, Json.Record.ofValues?, hcurrent, default?_historyJson,
      optional?_record, (keptSlot_instant _).optional?]
    rfl
  fits_values s value hvalue := by
    have hcurrent : Json.Fits (height α + 2) (some (Json.ofRecord s.current)) := by
      rintro json ⟨⟩
      exact ⟨Json.readsAs_record.proper s.current,
        fun depth hdepth => Json.readsAs_record.plain s.current depth (by omega)⟩
    have horigin : Json.Fits (height α + 2) (s.origin.map Json.ofRecord) := by
      intro json hjson
      obtain ⟨hproper, hplain⟩ := fits_record s.origin json hjson
      exact ⟨hproper, fun depth hdepth => hplain depth (le_trans (Nat.le_add_left 1 _) hdepth)⟩
    have hall : List.Forall (Json.Fits (height α + 2)) (Json.Record.values s) :=
      ⟨hcurrent, fits_history _, fits_history _, fits_history _, fits_history _, horigin,
        (keptSlot_instant _).fits (Nat.zero_le _)⟩
    exact List.forall_iff_forall_mem.mp hall value hvalue

/-- From the contents of a snapshot a snapshot is read, whatever its numbers are. -/
theorem ofOctets?_render_reread (s : Snapshot α) : ofOctets? s.render = some (reread s) := by
  rw [ofOctets?, render, Json.parse?_pretty (Json.readsAs_record.proper s)]
  exact Json.readsAs_record.read_write s

/-- What was written for a snapshot is not refused when it is read again. -/
theorem verified_render (s : Snapshot α) : Call.verified α (.ok (some s.render)) = true := by
  rw [Call.verified, ofOctets?_render_reread]
  rfl

/-- The contents of a snapshot pass the check after writing, and a snapshot is read from them: the
same one when its numbers survive and none of its states is marked as approximated. -/
def ReadsBack (s : Snapshot α) : Prop :=
  Call.verified α (.ok (some s.render)) = true
    ∧ ∃ s', ofOctets? s.render = some s' ∧ (Lasts s → s' = s)

theorem readsBack (s : Snapshot α) : s.ReadsBack := by
  refine ⟨verified_render s, _, ofOctets?_render_reread s, ?_⟩
  intro h
  exact Json.reread_eq h.survive h.complete

/-- Snapshots of all kinds read back: those of devices and of their values, of gateways and of
collectors. -/
theorem codec :
    (∀ s : Snapshot SensorRecord, s.ReadsBack) ∧ (∀ s : Snapshot GatewayStatus, s.ReadsBack)
      ∧ ∀ s : Snapshot ServerStatus, s.ReadsBack :=
  ⟨readsBack, readsBack, readsBack⟩

/-- A device that was heard in a leap second, at a place that was remembered before with a name that
has to be escaped. -/
def sample : Snapshot SensorRecord where
  current :=
    { deviceId := some 100
      deviceName := some "a\"\u0001\\ü"
      capturedAt := Instant.make? 1483228799 1500000000
      location := some { lat := some ⟨0xc2172b02⟩, lon := some ⟨0x00000001⟩, alt := some (-5) }
      geiger := some {} }
  location := .ofList [⟨"100", .epoch, { location := some { lat := some ⟨0x3dcccccd⟩ } }⟩]
  origin := some { transport := "device-udp:192.0.2.10", lat := some ⟨0x80000000⟩ }
  updatedAt := some .epoch

theorem lasts_sample : Lasts sample := by
  refine ⟨?_, rfl, ?_⟩
  · intro n hn
    rw [Binary32.survives_iff]
    revert n
    decide +kernel
  · intro category
    cases category <;>
      simp [sample, history, historyDepth, Ring.ofList, Ring.empty, Lossless.Complete]

/-- A snapshot with a latitude that is not a number. -/
def unplaced : Snapshot SensorRecord where
  current := { location := some { lat := some (.nan false) } }

/-- The snapshot of a device reads back as it was. Where the latitude is not a number, a snapshot is
read that has none. -/
theorem codec_sample :
    ofOctets? sample.render = some sample
      ∧ ∃ s' : Snapshot SensorRecord, ofOctets? unplaced.render = some s'
        ∧ s'.current.location = some {} := by
  obtain ⟨-, s', hread, hsame⟩ := codec.1 sample
  refine ⟨by rw [hread, hsame lasts_sample], ?_⟩
  exact ⟨_, ofOctets?_render_reread unplaced, rfl⟩

end Snapshot

end FieldTelemetry.Store
