import FieldTelemetry.Proofs.Store.Writers

/-!
# Snapshots shared by writers

Any number of collectors write the snapshot of an entity, and nothing keeps them apart. They may
overwrite each other from what they have read before, and they may stop at any step. What is stored
is nevertheless the snapshot of some of the cycles that have written, one merged after the other.

## Main definitions

* `Writers.Shows`: what is stored shows a chain of cycles

## Main results

* `Writers.exists_shows`: at every moment after the first write
-/

namespace FieldTelemetry.Store

open Time (Instant)

variable {ι α σ : Type} [Mergeable α] [Lasting α] [LawfulState α] [Backend σ]

/-- What is stored shows a chain of cycles: it is the snapshot of these cycles, merged one after the
other, whose remembered changes are in step with the latest values. -/
structure Writers.Shows {kind : EntityKind α} {id : String} (view : Transient σ kind.name id)
    (calls : ι → Call α) (w : Writers ι α σ) (chain : List (Cycle ι)) (s : Snapshot α) : Prop where
  /-- The snapshot is stored, and is read from what is stored. -/
  holds : view.Holds w.store s
  /-- The cycles have written, in this order. -/
  chain_sublist : chain.Sublist w.written
  /-- The last of them has written last. -/
  getLast?_chain : chain.getLast? = w.written.getLast?
  /-- It is the empty snapshot with the updates of the cycles merged in. -/
  eq_afterCycles : s = Snapshot.empty.afterCycles calls chain
  /-- No more than a few changes are remembered. -/
  size_le : ∀ category, (s.history category).size ≤ historyDepth
  /-- The change that was remembered last has the latest values, and neighbouring ones differ. -/
  inStep : s.InStep kind.tracked
  /-- Every value comes from the updates of the cycles. -/
  suppliedBy : s.SuppliedBy (chain.map fun cycle => (calls cycle.writer).prepared)

/-- Steps of any number of calls for an entity, in any order, on a store where nothing is stored for
it: nothing is stored before the first write, and afterwards what is stored shows a chain of
cycles that have written. -/
theorem Writers.exists_shows [DecidableEq ι] {kind : EntityKind α} {id : String}
    (view : Transient σ kind.name id) {calls : ι → Call α} (hcalls : ∀ i, (calls i).For kind id)
    (hnodup : kind.tracked.Nodup) {store : σ} (hsteady : view.Steady store)
    (habsent : view.contents store = none) (turns : List (ι × Instant)) :
    let w := (start calls store).run calls turns
    (w.written = [] ∧ view.contents w.store = none) ∨ ∃ chain s, w.Shows view calls chain s := by
  intro w
  have hsurvives (i : ι) := (hcalls i).survives
  have hstart : Accounted view calls none (start calls store) :=
    habsent ▸ Accounted.start calls hsteady
  have haccounted : Accounted view calls none w := hstart.run hcalls Snapshot.lasts_empty turns
  by_cases hshown : w.shown = []
  · exact .inl ⟨haccounted.written_eq_nil_iff.mpr hshown, haccounted.unwritten hshown⟩
  · have hlasts := Snapshot.lasts_afterCycles hsurvives Snapshot.lasts_empty w.shown
    refine .inr ⟨w.shown, Snapshot.empty.afterCycles calls w.shown, ?_⟩
    exact {
      holds := ⟨haccounted.shows hshown, Snapshot.ofOctets?_render hlasts⟩
      chain_sublist := haccounted.shown_sublist
      getLast?_chain := haccounted.getLast?_shown
      eq_afterCycles := rfl
      size_le := fun category => Ring.length_le _
      inStep := Snapshot.InStep.afterCycles hnodup (fun i => (hcalls i).kind_eq) hsurvives
        Snapshot.lasts_empty (Snapshot.InStep.empty _) w.shown
      suppliedBy := Snapshot.SuppliedBy.empty.afterCycles fun cycle hcycle =>
        List.mem_map_of_mem hcycle }

/-! ### Three collectors -/

/-- Three collectors at work for a device: they report its altitude and the counts of its tubes. -/
def fleetCalls (i : Fin 3) : Call SensorRecord where
  kind := .device
  id := "100"
  update := match i with
    | 0 => { location := some { alt := some 12 } }
    | 1 => { geiger := some { cpm0 := some 7 } }
    | 2 => { geiger := some { cpm1 := some 9 } }
  attempts := 8

theorem fleetCalls_for (i : Fin 3) : (fleetCalls i).For .device "100" where
  kind_eq := rfl
  id_eq := rfl
  survives := by
    match i with
    | 0 | 1 | 2 => exact Call.survives_of_eq_nil rfl rfl

/-- The second collector reads before the first one writes, and the third one when the second has
written. None of them looks again at what it has written. -/
def fleetSteps : Writers (Fin 3) SensorRecord Folders :=
  (Writers.start fleetCalls default).run fleetCalls
    ([0, 1, 0, 1, 2, 2].map fun i => (i, .epoch))

/-- The snapshot that the third collector leaves shows cycles that have written, of which its own is
the last. -/
theorem exists_shows_fleetSteps :
    fleetSteps.written = [⟨0, .epoch⟩, ⟨1, .epoch⟩, ⟨2, .epoch⟩]
      ∧ ∃ chain s, fleetSteps.Shows (Folders.transient EntityKind.device.name "100") fleetCalls
          chain s ∧ chain.getLast? = some ⟨2, .epoch⟩ := by
  have hwritten : fleetSteps.written = [⟨0, .epoch⟩, ⟨1, .epoch⟩, ⟨2, .epoch⟩] := by
    decide +kernel
  have habsent : (Folders.transient EntityKind.device.name "100").contents default = none := rfl
  refine ⟨hwritten, ?_⟩
  have hshows := Writers.exists_shows (Folders.transient EntityKind.device.name "100")
    fleetCalls_for (by decide) trivial habsent ([0, 1, 0, 1, 2, 2].map fun i => (i, .epoch))
  rcases hshows with ⟨hnil, -⟩ | ⟨chain, s, hshows⟩
  · cases hwritten.symm.trans hnil
  · exact ⟨chain, s, hshows, hshows.getLast?_chain.trans (congrArg List.getLast? hwritten)⟩

end FieldTelemetry.Store
