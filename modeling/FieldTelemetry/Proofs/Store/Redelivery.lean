import FieldTelemetry.Proofs.Record.Reread
import FieldTelemetry.Proofs.Store.Codec
import FieldTelemetry.Proofs.Store.ExactlyOnce

/-!
# Updates that are delivered again

A call whose update was merged right before, by another call, merges it into what is read of the
snapshot that was written then. A number that is not read as the same number, such as a NaN, makes
the category that it belongs to count as changed, so it is remembered with every delivery. All other
categories stay as they are.

## Main definitions

* `Call.Redelivered`: what the second of two deliveries finds and leaves

## Main results

* `Call.run_of_reliable`: a call without faults
* `Call.redelivered`: every update of a device, delivered twice
* `run_unplaced_twice`: a device whose latitude is a NaN
-/

namespace FieldTelemetry.Store

open Json (Lossless Readable reread)
open Json.Lossless (numbers)
open Time (Instant)

/-! ## Calls without faults -/

section Calls

variable {α σ : Type} [Mergeable α] [Lasting α] [Readable α] [Backend σ] {call : Call α}
  {view : Transient σ call.kind.name call.id} {store : σ}

theorem Call.stored_render (s : Snapshot α) : stored (some s.render) = reread s := by
  rw [stored, Option.bind_some, Snapshot.ofOctets?_render_reread, Option.getD_some]

omit [Lasting α] [Readable α] in
theorem Call.step_reading (h : view.Reliable) (hsteady : view.Steady store) (now : Instant)
    (more : ℕ) : call.step now (.reading more) store
      = (.writing more (call.merged (view.contents store) now),
        (Backend.read store call.kind.name call.id).2) := by
  have hread := h.read_eq hsteady
  rw [step]
  split
  · rename_i heq
    rw [heq] at hread
    cases hread
  · rename_i heq
    rw [heq] at hread ⊢
    cases hread
    rfl

omit [Lasting α] [Readable α] in
theorem Call.step_writing (h : view.Reliable) (hsteady : view.Steady store) (now : Instant)
    (more : ℕ) (s : Snapshot α) : call.step now (.writing more s) store
      = (.verifying more s, (Backend.write store call.kind.name call.id s.render now).2) := by
  have hwrite := h.write_eq hsteady s.render now
  rw [step]
  split
  · rename_i heq
    rw [heq] at hwrite
    cases hwrite
  · rename_i heq
    rw [heq]

theorem Call.step_verifying (h : view.Reliable) (hsteady : view.Steady store) (now : Instant)
    (more : ℕ) {s : Snapshot α} (hcontents : view.contents store = some s.render) :
    call.step now (.verifying more s) store
      = (.done (.ok s), (Backend.read store call.kind.name call.id).2) := by
  have hread := h.read_eq hsteady
  rw [hcontents] at hread
  have hverified : verified α (Backend.read store call.kind.name call.id).1 = true := by
    rw [hread]
    exact Snapshot.verified_render s
  rw [step]
  exact congrArg (·, _) (if_pos hverified)

/-- Without faults a call reads, writes and reads again, and the snapshot that it answers is
stored. -/
theorem Call.run_of_reliable (h : view.Reliable) (hid : EntityId.Valid call.id)
    (hattempts : 0 < call.attempts) (hsteady : view.Steady store) (now : Instant) :
    (call.run now store).1 = .ok (call.onto (stored (view.contents store)) now)
      ∧ view.contents (call.run now store).2
        = some (call.onto (stored (view.contents store)) now).render
      ∧ view.Steady (call.run now store).2 := by
  have hread := view.steady_read hsteady
  have hcontents := view.write_ok hread (h.write_eq hread
    (call.merged (view.contents store) now).render now)
  have hwritten := view.steady_write (call.merged (view.contents store) now).render now hread
  rw [run, start_eq_reading hid hattempts, finish_step, step_reading h hsteady, finish_step,
    step_writing h hread, finish_step, step_verifying h hwritten now _ hcontents, finish]
  exact ⟨rfl, (view.contents_read hwritten).trans hcontents, view.steady_read hwritten⟩

omit [Lasting α] [Readable α] in
theorem load_of_reliable (h : view.Reliable) (hsteady : view.Steady store) :
    (load call.kind call.id store).1 = .ok (Call.stored (view.contents store)) := by
  have hread := h.read_eq hsteady
  rw [load]
  split
  · rename_i heq
    rw [heq] at hread
    cases hread
  · rename_i heq
    rw [heq] at hread
    cases hread
    rfl

end Calls

/-! ## Two deliveries -/

/-- What the second of two calls with an update finds and leaves: the snapshot that the first one
answers is `first`, the one that is stored then is `stored`, and the second one answers `second`. -/
structure Call.Redelivered (call : Call SensorRecord) (now : Instant)
    (before first stored second : Snapshot SensorRecord) : Prop where
  /-- The entities and times of the changes that the first one remembers are stored. -/
  entries : ∀ category, (stored.history category).entries.map (fun e => (e.entityId, e.changedAt))
    = (first.history category).entries.map fun e => (e.entityId, e.changedAt)
  /-- The second one remembers one more change of a category if the category is tracked and the
  update has a number in it that does not stay, and no other change. -/
  history : ∀ category, second.history category
    = if category ∈ call.kind.tracked
          ∧ ∃ n ∈ numbers (Mergeable.project call.prepared category), ¬ n.Stays then
        (stored.history category).push ⟨call.id, now, Mergeable.project second.current category⟩
      else stored.history category
  /-- The latest values stay when the numbers of those before do, whatever the update is. -/
  current : Survive before.current → second.current = first.current

section Deliveries

variable {call : Call SensorRecord}

/-- The second call merges the update into what is read of the snapshot that the first one wrote. -/
theorem Call.redelivered_onto (htracked : call.kind.tracked.Nodup) {before : Snapshot SensorRecord}
    (hcomplete : Lossless.Complete before.current) (now now' : Instant) :
    call.Redelivered now' before (call.onto before now) (reread (call.onto before now))
      (call.onto (reread (call.onto before now)) now') where
  entries category := by
    have hread : (reread (call.onto before now)).history category
        = History.reread ((call.onto before now).history category) := by
      cases category <;> rfl
    rw [hread, History.entries_reread, List.map_map]
    rfl
  history category := by
    have halike := SensorRecord.alike_project_iff before.current call.prepared category
    have hmem : category ∈ call.changes (reread (call.onto before now))
        ↔ category ∈ call.kind.tracked
          ∧ ∃ n ∈ numbers (Mergeable.project call.prepared category), ¬ n.Stays := by
      rw [call.mem_changes]
      refine and_congr_right fun _ => ?_
      rw [← Bool.not_eq_true, ← not_iff_not, not_not]
      push Not
      exact halike
    rw [call.history_onto_of_nodup _ _ htracked]
    simp only [hmem]
    rfl
  current hsurvive := SensorRecord.overlay_reread hsurvive hcomplete

/-- Without faults, two calls with an update of a device, one after the other, both answer a
snapshot. The second one remembers nothing but the tracked categories in which the update has a
number that does not stay, whatever was stored at first and whatever the update is. -/
theorem Call.redelivered {σ : Type} [Backend σ] (view : Transient σ call.kind.name call.id)
    (h : view.Reliable) (hid : EntityId.Valid call.id) (hattempts : 0 < call.attempts)
    (htracked : call.kind.tracked.Nodup) {store : σ} (hsteady : view.Steady store)
    (now now' : Instant) :
    ∃ first stored second, (call.run now store).1 = .ok first
      ∧ (load call.kind call.id (call.run now store).2).1 = .ok stored
      ∧ (call.run now' (call.run now store).2).1 = .ok second
      ∧ call.Redelivered now' (Call.stored (view.contents store)) first stored second := by
  obtain ⟨hfirst, hcontents, hsteady'⟩ := run_of_reliable h hid hattempts hsteady now
  have hstored := load_of_reliable h hsteady'
  obtain ⟨hsecond, -, -⟩ := run_of_reliable h hid hattempts hsteady' now'
  rw [hcontents, stored_render] at hstored hsecond
  refine ⟨_, _, _, hfirst, hstored, hsecond, redelivered_onto htracked ?_ now now'⟩
  exact (complete_stored (view.contents store)).current

end Deliveries

/-! ### A number that is not a number -/

/-- A device that reports a count and a latitude. -/
def placedCall (lat : Binary32) : Call SensorRecord where
  kind := .device
  id := "100"
  update := { location := some { lat := some lat }, geiger := some { cpm0 := some 7 } }
  attempts := 8

/-- A latitude of one and a half is remembered once when it is delivered twice. -/
theorem redelivered_placed :
    ∃ first stored second : Snapshot SensorRecord,
      ((placedCall ⟨0x3fc00000⟩).run .epoch (default : Memory)).1 = .ok first
      ∧ (load .device "100" ((placedCall ⟨0x3fc00000⟩).run .epoch (default : Memory)).2).1
        = .ok stored
      ∧ ((placedCall ⟨0x3fc00000⟩).run (Store.second 61)
          ((placedCall ⟨0x3fc00000⟩).run .epoch (default : Memory)).2).1 = .ok second
      ∧ second.location = stored.location ∧ second.geiger = stored.geiger
      ∧ second.current = first.current := by
  have hid : EntityId.Valid (placedCall ⟨0x3fc00000⟩).id := by decide
  have hattempts : 0 < (placedCall ⟨0x3fc00000⟩).attempts := by decide
  have hsteady : (Memory.transient (placedCall ⟨0x3fc00000⟩).kind.name
    (placedCall ⟨0x3fc00000⟩).id).Steady default := trivial
  obtain ⟨first, stored, second, hfirst, hstored, hsecond, h⟩ :=
    Call.redelivered _ (Memory.reliable_transient hid) hid hattempts (by decide) hsteady .epoch
      (Store.second 61)
  have hstays : ∀ category,
      ¬ ∃ n ∈ numbers (Mergeable.project (placedCall ⟨0x3fc00000⟩).prepared category),
        ¬ n.Stays := by
    intro category
    cases category <;> decide +kernel
  refine ⟨first, stored, second, hfirst, hstored, hsecond, ?_, ?_, h.current ?_⟩
  · exact (h.history .location).trans (if_neg fun hmem => hstays .location hmem.2)
  · exact (h.history .geiger).trans (if_neg fun hmem => hstays .geiger hmem.2)
  · exact Snapshot.survive_current Snapshot.lasts_empty.survive

/-- A latitude that is a NaN is remembered twice when it is delivered twice. -/
theorem run_unplaced_twice :
    ∃ first second : Snapshot SensorRecord,
      ((placedCall (.nan false)).run .epoch (default : Memory)).1 = .ok first
      ∧ ((placedCall (.nan false)).run (Store.second 61)
          ((placedCall (.nan false)).run .epoch (default : Memory)).2).1 = .ok second
      ∧ first.location.entries.length = 1 ∧ second.location.entries.length = 2
      ∧ second.geiger.entries.length = 1 := by
  have hid : EntityId.Valid (placedCall (.nan false)).id := by decide
  have hattempts : 0 < (placedCall (.nan false)).attempts := by decide
  have hreliable : (Memory.transient (placedCall (.nan false)).kind.name
    (placedCall (.nan false)).id).Reliable := Memory.reliable_transient hid
  have hsteady : (Memory.transient (placedCall (.nan false)).kind.name
    (placedCall (.nan false)).id).Steady default := trivial
  obtain ⟨hfirst, hcontents, hsteady⟩ :=
    Call.run_of_reliable hreliable hid hattempts hsteady .epoch
  obtain ⟨hsecond, -, -⟩ :=
    Call.run_of_reliable hreliable hid hattempts hsteady (Store.second 61)
  rw [hcontents, Call.stored_render] at hsecond
  exact ⟨_, _, hfirst, hsecond, by decide +kernel⟩

end FieldTelemetry.Store
