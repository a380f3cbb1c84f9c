import FieldTelemetry.Proofs.Store.Writers
import Mathlib.Data.Bool.Count

/-!
# Overlapping writers

Two collectors write the snapshot of an entity, and every operation succeeds. The check after a
write accepts any snapshot, so a collector whose write was replaced does not notice it. An update is
lost when the other collector had read before it was written, unless what it says is also in the
update of the other one or was known before.

## Main definitions

* `OneCycle`: every call has written in one cycle at most
* `Absorbs`: a state has values from two updates wherever one of them has some

## Main results

* `Writers.exists_last`: what is stored in the end is what the last of two calls has written
* `Writers.absorbs_iff`: when no update is lost
-/

namespace FieldTelemetry.Store

open Time (Instant)

/-! ## One cycle for each call -/

section OneCycle

variable {ι α σ : Type} [Mergeable α] [Backend σ] {kind : EntityKind α} {id : String}
  {view : Transient σ kind.name id} {calls : ι → Call α}

/-- Every call has written in one cycle at most. -/
structure OneCycle [DecidableEq ι] (w : Writers ι α σ) : Prop where
  /-- The cycles that have written are those of calls that have written. -/
  count_eq : ∀ i, (w.written.map Cycle.writer).count i = if (w.phase i).hasWritten then 1 else 0
  /-- What is stored shows what the last of them shows. -/
  draft_eq : ∀ cycle ∈ w.written.getLast?, w.shown = w.draft cycle.writer

namespace OneCycle

variable [DecidableEq ι]

omit [Mergeable α] [Backend σ] in
theorem start (calls : ι → Call α) (store : σ) : OneCycle (Writers.start calls store) where
  count_eq i := by
    rw [Writers.start, Call.hasWritten_start]
    rfl
  draft_eq _ hcycle := by cases hcycle

omit [Mergeable α] [Backend σ] in
theorem written_ne_nil {w : Writers ι α σ} (h : OneCycle w) {i : ι}
    (hwritten : (w.phase i).hasWritten = true) : w.written ≠ [] := by
  intro hnil
  have hcount := h.count_eq i
  rw [hnil, hwritten] at hcount
  cases hcount

/-- When a call has written, what is stored shows a cycle. -/
theorem shown_ne_nil {w : Writers ι α σ} (h : OneCycle w) {initial : Option Octets}
    (haccounted : Accounted view calls initial w) {i : ι}
    (hwritten : (w.phase i).hasWritten = true) : w.shown ≠ [] :=
  mt haccounted.written_eq_nil_iff.mpr (h.written_ne_nil hwritten)

omit [Mergeable α] [Backend σ] in
theorem count_goTo {w : Writers ι α σ} {i : ι} {phase : Phase α} {store : σ}
    (hi : (w.written.map Cycle.writer).count i = if phase.hasWritten then 1 else 0)
    (h : ∀ j ≠ i,
      (w.written.map Cycle.writer).count j = if (w.phase j).hasWritten then 1 else 0) :
    ∀ j, ((w.goTo i phase store).written.map Cycle.writer).count j
      = if ((w.goTo i phase store).phase j).hasWritten then 1 else 0 := by
  intro j
  by_cases hj : j = i
  · rw [hj, Writers.phase_goTo_self]
    exact hi
  · rw [Writers.phase_goTo_of_ne hj]
    exact h j hj

theorem turn [Lasting α] {w : Writers ι α σ} (h : OneCycle w) {initial : Option Octets}
    (haccounted : Accounted view calls initial w) (hreliable : view.Reliable)
    (hcalls : ∀ i, (calls i).For kind id) (hinitial : Lasts (Call.stored initial : Snapshot α))
    (i : ι) (now : Instant) : OneCycle (w.turn calls i now) := by
  obtain ⟨hturn, -⟩ := Writers.turn_cases calls (hcalls i) haccounted.steady now
  have hcount := h.count_eq i
  generalize w.turn calls i now = next at hturn
  cases hturn with
  | read hphase hstore =>
    rw [hphase] at hcount
    refine ⟨count_goTo hcount fun j _ => h.count_eq j, ?_⟩
    intro cycle hcycle
    -- A call that reads has not written yet.
    have hne : cycle.writer ≠ i := by
      rintro rfl
      have hmem := List.mem_map_of_mem (f := Cycle.writer) (List.mem_of_getLast? hcycle)
      exact List.count_pos_iff.mpr hmem |>.ne' hcount
    exact (h.draft_eq cycle hcycle).trans (w.draft_noteRead_of_ne hne now).symm
  | write hphase hstore =>
    rw [hphase] at hcount
    refine ⟨count_goTo ?_ fun j hj => ?_, ?_⟩
    · rw [Writers.noteWrite, List.map_append, List.count_append, hcount]
      simp [Writers.cycle, Phase.hasWritten]
    · rw [Writers.noteWrite, List.map_append, List.count_append, h.count_eq j]
      simp [Writers.cycle, Ne.symm hj]
    · intro cycle hcycle
      cases List.getLast?_concat.symm.trans hcycle
      rfl
  | check hphase hstore =>
    rw [hphase] at hcount
    exact ⟨count_goTo hcount fun j _ => h.count_eq j, h.draft_eq⟩
  | fail hfails hstore =>
    -- Operations do not fail, and what was written passes the check.
    exact absurd hfails (haccounted.not_fails hreliable (fun i => (hcalls i).survives) hinitial
      (h.shown_ne_nil haccounted))
  | rest hphase => exact h

theorem run [Lasting α] {w : Writers ι α σ} (h : OneCycle w) {initial : Option Octets}
    (haccounted : Accounted view calls initial w) (hreliable : view.Reliable)
    (hcalls : ∀ i, (calls i).For kind id) (hinitial : Lasts (Call.stored initial : Snapshot α))
    (turns : List (ι × Instant)) : OneCycle (w.run calls turns) := by
  induction turns using List.reverseRecOn with
  | nil => exact h
  | append_singleton turns next ih =>
    rw [Writers.run_append]
    exact ih.turn (haccounted.run hcalls hinitial turns) hreliable hcalls hinitial next.1 next.2

end OneCycle

end OneCycle

/-! ## Two calls -/

section TwoCalls

variable {α σ : Type} [Mergeable α] [Lasting α] [Backend σ] {kind : EntityKind α} {id : String}
  {view : Transient σ kind.name id} {calls : Bool → Call α}

/-- The calls have ended with snapshots. -/
def Writers.Ended (w : Writers Bool α σ) : Prop := ∀ i, ∃ s, w.phase i = .done (.ok s)

omit [Mergeable α] [Lasting α] [Backend σ] in
/-- When both calls have ended, each has written once. -/
theorem OneCycle.exists_pair {w : Writers Bool α σ} (h : OneCycle w) (hended : w.Ended) :
    ∃ first last : Cycle Bool, w.written = [first, last] ∧ last.writer = !first.writer := by
  have hcount (i : Bool) : (w.written.map Cycle.writer).count i = 1 := by
    obtain ⟨s, hphase⟩ := hended i
    rw [h.count_eq i, hphase]
    rfl
  have hlength : w.written.length = 2 := by
    rw [← List.length_map (f := Cycle.writer), ← List.count_true_add_count_false, hcount, hcount]
  obtain ⟨first, last, hwritten⟩ := List.length_eq_two.mp hlength
  refine ⟨first, last, hwritten, ?_⟩
  -- Both cycles would be of one call otherwise, which would have written twice.
  have hne : last.writer ≠ first.writer := by
    intro heq
    have hsame := hcount first.writer
    rw [hwritten] at hsame
    simp [heq] at hsame
  exact Bool.eq_not.mpr hne

/-- What is stored when both calls have ended is what the last of them has written. It has read what
was stored at first, or what the first of them has written. -/
theorem Writers.exists_last (hreliable : view.Reliable) (hcalls : ∀ i, (calls i).For kind id)
    {store : σ} (hsteady : view.Steady store)
    (hstored : Survive (Call.stored (view.contents store) : Snapshot α))
    (turns : List (Bool × Instant)) (hended : ((start calls store).run calls turns).Ended) :
    let before : Snapshot α := Call.stored (view.contents store)
    let w := (start calls store).run calls turns
    ∃ first last, w.written = [first, last] ∧ last.writer = !first.writer
      ∧ (w.basis last.writer = [] ∨ w.basis last.writer = [first])
      ∧ view.Holds w.store (before.afterCycles calls (w.basis last.writer ++ [last])) := by
  intro before w
  have hbefore : Lasts before := Call.lasts_stored hstored
  have hstart := Accounted.start calls hsteady
  have haccounted : Accounted view calls (view.contents store) w := hstart.run hcalls hbefore turns
  have hone : OneCycle w := (OneCycle.start calls store).run hstart hreliable hcalls hbefore turns
  obtain ⟨first, last, hwritten, hwriter⟩ := hone.exists_pair hended
  have hdraft : w.shown = w.basis last.writer ++ [w.cycle last.writer] :=
    hone.draft_eq last (by rw [hwritten]; rfl)
  -- The last cycle that is shown is the one that has written last.
  have hlast : w.cycle last.writer = last := by
    have hsame := haccounted.getLast?_shown
    rw [hdraft, hwritten, List.getLast?_concat] at hsame
    exact Option.some.inj hsame
  rw [hlast] at hdraft
  have hbasis : (w.basis last.writer).Sublist [first] := by
    have hsublist := haccounted.shown_sublist
    rw [hdraft, hwritten, ← List.singleton_append] at hsublist
    exact List.append_sublist_append_right [last] |>.mp hsublist
  have hlasts := Snapshot.lasts_afterCycles (fun i => (hcalls i).survives) hbefore w.shown
  have hholds : view.Holds w.store (before.afterCycles calls w.shown) :=
    ⟨haccounted.shows (by rw [hdraft]; exact List.concat_ne_nil _ _),
      Snapshot.ofOctets?_render hlasts⟩
  exact ⟨first, last, hwritten, hwriter, List.sublist_singleton.mp hbasis, hdraft ▸ hholds⟩

/-- Two calls that have written end with snapshots when they take a step each. -/
theorem Writers.ended_turn_turn (hreliable : view.Reliable) (hcalls : ∀ i, (calls i).For kind id)
    {initial : Option Octets} (hinitial : Lasts (Call.stored initial : Snapshot α))
    {w : Writers Bool α σ} (haccounted : Accounted view calls initial w) (hone : OneCycle w)
    (hwritten : ∀ i, (w.phase i).hasWritten = true) (hdone : ∀ i, (w.phase i).isDone = false)
    (now later : Instant) : ((w.turn calls false now).turn calls true later).Ended := by
  have haccounted' := haccounted.turn hcalls hinitial false now
  have hone' := hone.turn haccounted hreliable hcalls hinitial false now
  obtain ⟨_, s, hphase⟩ := Phase.exists_verifying (hwritten false) (hdone false)
  obtain ⟨_, s', hphase'⟩ := Phase.exists_verifying (hwritten true) (hdone true)
  have hother : (true : Bool) ≠ false := by decide
  rw [← phase_turn_of_ne calls hother w now] at hphase'
  intro i
  cases i with
  | false =>
    refine ⟨s, (phase_turn_of_ne calls hother.symm _ later).trans ?_⟩
    exact haccounted.phase_turn_of_verifying hcalls hinitial hphase
      (hone.shown_ne_nil haccounted (hwritten true)) (fun _ => hreliable.read haccounted.steady) now
  | true =>
    refine ⟨s', haccounted'.phase_turn_of_verifying hcalls hinitial hphase' ?_
      (fun _ => hreliable.read haccounted'.steady) later⟩
    exact hone'.shown_ne_nil haccounted' (i := true) (by rw [hphase']; rfl)

variable [LawfulState α]

/-- Wherever one of two updates has a value, a state has a value from one of them. -/
def Absorbs (calls : Bool → Call α) (x : α) : Prop :=
  ∀ field ∈ fields, ∀ i, (field (calls i).prepared).isSome →
    ∃ j, (field (calls j).prepared).isSome ∧ field x = field (calls j).prepared

instance (calls : Bool → Call α) (x : α) : Decidable (Absorbs calls x) :=
  inferInstanceAs (Decidable (∀ field ∈ fields, ∀ _, _ → ∃ _, _ ∧ _))

/-- Where one update has a value that another one leaves as it is, a state has the same value. -/
def Covered (x first last : α) : Prop :=
  ∀ field ∈ fields, field last = none → (field first).isSome → field x = field first

omit [Lasting α] [LawfulState α] [Mergeable α] in
/-- A value that the update of one call does not have is in that of the other. -/
theorem eq_of_isSome {field : α → Option Leaf} {i j : Bool}
    (hnone : field (calls (!i)).prepared = none) (hsome : (field (calls j).prepared).isSome) :
    j = i := by
  by_contra hne
  rw [Bool.eq_not.mpr hne, hnone] at hsome
  cases hsome

/-- A state absorbs both updates when they are laid over it one after the other. -/
theorem absorbs_both (x : α) (i : Bool) :
    Absorbs calls
      (Overlay.overlay (Overlay.overlay x (calls i).prepared) (calls (!i)).prepared) := by
  intro field hfield j hj
  rw [field_overlay field hfield, field_overlay field hfield]
  cases hlast : field (calls (!i)).prepared with
  | some leaf => exact ⟨!i, by rw [hlast]; rfl, by rw [hlast]; rfl⟩
  | none =>
    obtain rfl := eq_of_isSome hlast hj
    exact ⟨j, hj, by rw [Option.none_or, Option.or_of_isSome hj]⟩

/-- A state absorbs an update that is not laid over it when it is covered. -/
theorem absorbs_last_iff (x : α) (i : Bool) :
    Absorbs calls (Overlay.overlay x (calls (!i)).prepared)
      ↔ Covered x (calls i).prepared (calls (!i)).prepared := by
  constructor
  · intro h field hfield hlast hfirst
    obtain ⟨j, hj, hx⟩ := h field hfield i hfirst
    obtain rfl := eq_of_isSome hlast hj
    rwa [field_overlay field hfield, hlast, Option.none_or] at hx
  · intro h field hfield j hj
    rw [field_overlay field hfield]
    cases hlast : field (calls (!i)).prepared with
    | some leaf => exact ⟨!i, by rw [hlast]; rfl, by rw [hlast]; rfl⟩
    | none =>
      obtain rfl := eq_of_isSome hlast hj
      exact ⟨j, hj, h field hfield hlast hj⟩

/-- Two calls on a store whose operations do not fail, with their steps in any order: when both have
ended with snapshots, the stored one absorbs both updates exactly when the call that wrote last had
read what the other one wrote, or when its own update and what was stored at first cover what the
other update says. -/
theorem Writers.absorbs_iff (hreliable : view.Reliable) (hcalls : ∀ i, (calls i).For kind id)
    {store : σ} (hsteady : view.Steady store)
    (hstored : Survive (Call.stored (view.contents store) : Snapshot α))
    (turns : List (Bool × Instant)) (hended : ((start calls store).run calls turns).Ended) :
    let before : Snapshot α := Call.stored (view.contents store)
    let w := (start calls store).run calls turns
    ∃ first last s, w.written = [first, last] ∧ last.writer = !first.writer
      ∧ view.Holds w.store s
      ∧ (Absorbs calls s.current ↔ w.basis last.writer = [first]
        ∨ Covered before.current (calls first.writer).prepared (calls last.writer).prepared) := by
  intro before w
  obtain ⟨first, last, hwritten, hwriter, hbasis, hholds⟩ :=
    exists_last hreliable hcalls hsteady hstored turns hended
  refine ⟨first, last, _, hwritten, hwriter, hholds, ?_⟩
  rcases hbasis with hbasis | hbasis
  · -- Only the update of the last call is laid over what was stored at first.
    rw [hbasis, or_iff_right (List.cons_ne_nil _ _).symm]
    have hcurrent : (before.afterCycles calls ([] ++ [last])).current
        = Overlay.overlay before.current (calls (!first.writer)).prepared := by
      rw [Snapshot.afterCycles_append, hwriter]
      rfl
    rw [hcurrent, hwriter]
    exact absorbs_last_iff before.current first.writer
  · rw [hbasis]
    refine iff_of_true ?_ (.inl rfl)
    have hcurrent : (before.afterCycles calls ([first] ++ [last])).current
        = Overlay.overlay (Overlay.overlay before.current (calls first.writer).prepared)
          (calls (!first.writer)).prepared := by
      rw [Snapshot.afterCycles_append, hwriter]
      rfl
    rw [hcurrent]
    exact absorbs_both before.current first.writer

end TwoCalls

/-! ### Two orders of steps -/

/-- Two collectors at work for a device: one reports its altitude and the other one a count. -/
def pairCalls (i : Bool) : Call SensorRecord where
  kind := .device
  id := "100"
  update :=
    if i then { geiger := some { cpm0 := some 7 } } else { location := some { alt := some 12 } }
  attempts := 8

/-- Steps of the two collectors in an order, on an empty memory. -/
def pairSteps (order : List Bool) : Writers Bool SensorRecord Memory :=
  (Writers.start pairCalls default).run pairCalls (order.map fun i => (i, .epoch))

theorem pairCalls_for (i : Bool) : (pairCalls i).For .device "100" where
  kind_eq := rfl
  id_eq := rfl
  survives := by cases i <;> exact Call.survives_of_eq_nil rfl rfl

theorem reliable_pair : (Memory.transient EntityKind.device.name "100").Reliable :=
  Memory.reliable_transient (by decide)

theorem lasts_pair : Lasts (Call.stored
    ((Memory.transient EntityKind.device.name "100").contents default) : Snapshot SensorRecord) :=
  Snapshot.lasts_empty

theorem ended_pairSteps (order : List Bool)
    (hwritten : ∀ i, ((pairSteps order).phase i).hasWritten = true)
    (hdone : ∀ i, ((pairSteps order).phase i).isDone = false) :
    (pairSteps (order ++ [false, true])).Ended := by
  let view := Memory.transient EntityKind.device.name "100"
  have hstart : Accounted view pairCalls (view.contents default)
      (Writers.start pairCalls default) := Accounted.start pairCalls trivial
  have haccounted := hstart.run pairCalls_for lasts_pair (order.map fun i => (i, .epoch))
  have hone := (OneCycle.start pairCalls default).run hstart reliable_pair pairCalls_for
    lasts_pair (order.map fun i => (i, .epoch))
  have hsteps : pairSteps (order ++ [false, true])
      = ((pairSteps order).turn pairCalls false .epoch).turn pairCalls true .epoch := by
    rw [pairSteps, List.map_append, Writers.run, List.foldl_append]
    rfl
  rw [hsteps]
  exact Writers.ended_turn_turn reliable_pair pairCalls_for lasts_pair haccounted hone hwritten
    hdone _ _

/-- When both collectors read before one of them writes, the altitude is lost: both calls end with
success, and what is stored has only the count. -/
theorem lost_of_overlap :
    (pairSteps [false, true, false, true, false, true]).Ended
      ∧ ∃ s, (Memory.transient "device" "100").Holds
          (pairSteps [false, true, false, true, false, true]).store s
        ∧ ¬ Absorbs pairCalls s.current := by
  have hended := ended_pairSteps [false, true, false, true] (by decide +kernel) (by decide +kernel)
  obtain ⟨first, last, hwritten, -, -, hholds⟩ :=
    Writers.exists_last reliable_pair pairCalls_for trivial lasts_pair.survive _ hended
  refine ⟨hended, _, hholds, ?_⟩
  have hpair : (pairSteps [false, true, false, true, false, true]).written
      = [⟨false, .epoch⟩, ⟨true, .epoch⟩] := by decide +kernel
  have hbasis : (pairSteps [false, true, false, true, false, true]).basis true = [] := by
    decide +kernel
  cases hwritten.symm.trans hpair
  change ¬ Absorbs pairCalls (Snapshot.afterCycles pairCalls Snapshot.empty
    ((pairSteps [false, true, false, true, false, true]).basis true ++ [⟨true, .epoch⟩])).current
  rw [hbasis]
  decide +kernel

/-- When one collector reads what the other one has written, what is stored has both values. -/
theorem absorbs_iff_serial :
    ∃ s, (Memory.transient "device" "100").Holds
        (pairSteps [false, false, true, true, false, true]).store s
      ∧ Absorbs pairCalls s.current := by
  have hended := ended_pairSteps [false, false, true, true] (by decide +kernel) (by decide +kernel)
  obtain ⟨first, last, s, hwritten, -, hholds, habsorbs⟩ :=
    Writers.absorbs_iff reliable_pair pairCalls_for trivial lasts_pair.survive _ hended
  refine ⟨s, hholds, habsorbs.mpr (.inl ?_)⟩
  have hpair : (pairSteps [false, false, true, true, false, true]).written
      = [⟨false, .epoch⟩, ⟨true, .epoch⟩] := by decide +kernel
  cases hwritten.symm.trans hpair
  have hbasis : (pairSteps [false, false, true, true, false, true]).basis true
      = [⟨false, .epoch⟩] := by decide +kernel
  exact hbasis

end FieldTelemetry.Store
