import FieldTelemetry.Proofs.Store.Endings
import FieldTelemetry.Proofs.Store.Writers

/-!
# A lone call takes effect once

Reads, writes and checks of a call may fail in any of its cycles. While nobody else writes, what is
stored is what was stored at first or that with the update merged in once, however many cycles have
written.

## Main definitions

* `Call.MergedOnce`: a snapshot is another one with the update of a call merged in once
* `Alone`: the cycles of a lone call build on one another

## Main results

* `Call.mergedOnce_of_repeated`: cycles of a call have the effect of one
* `Writers.exactlyOnce`: what is stored at every moment and when the call has ended
-/

namespace FieldTelemetry.Store

open Time (Instant)

variable {α : Type} [Mergeable α]

/-- A snapshot is another one with the update of a call merged in once. Only the time of the update
is that of a later cycle. -/
structure Call.MergedOnce (call : Call α) (before : Snapshot α) (first last : Instant)
    (s : Snapshot α) : Prop where
  /-- It is the other one with the update merged in, but for the time of the update. -/
  eq_onto : s = (call.onto before first).restamp last
  /-- The changes of a category have become one more when the update changes it, and have stayed
  when it does not. -/
  history : ∀ category, (s.history category).entries = if category ∈ call.changes before then
      (⟨call.id, first, Mergeable.project s.current category⟩
        :: (before.history category).entries).take historyDepth
    else (before.history category).entries

section Repeated

variable [Lasting α] [LawfulState α] {ι : Type} {call : Call α} {before : Snapshot α}
  {chain : List (Cycle ι)} {first last : Cycle ι}

theorem Call.mergedOnce_of_repeated (hcall : call.Survives) (hnodup : call.kind.tracked.Nodup)
    (hbefore : Lasts before) (hfirst : chain.head? = some first)
    (hlast : chain.getLast? = some last) :
    call.MergedOnce before first.mergedAt last.mergedAt
      (before.afterCycles (fun _ => call) chain) := by
  rw [Snapshot.afterCycles_repeat hcall hbefore hfirst hlast]
  refine ⟨rfl, fun category => ?_⟩
  have hhistory : ((call.onto before first.mergedAt).restamp last.mergedAt).history category
      = (call.onto before first.mergedAt).history category := by
    cases category <;> rfl
  rw [hhistory, call.history_onto_of_nodup before first.mergedAt hnodup]
  split <;> rfl

end Repeated

/-- The update of a lone call is stored as if it had been merged in once, by the first of the cycles
that have written. -/
structure Writers.StoresOnce {σ : Type} [Backend σ] {kind id : String} (view : Transient σ kind id)
    (call : Call α) (before : Snapshot α) (w : Writers Unit α σ) (s : Snapshot α) : Prop where
  /-- The snapshot is stored. -/
  holds : view.Holds w.store s
  /-- The update was merged in once, and the time is that of the last cycle that has written. -/
  merged : ∃ first last, w.written.head? = some first ∧ w.written.getLast? = some last
    ∧ call.MergedOnce before first.mergedAt last.mergedAt s

/-! ## One call at work -/

section Alone

variable {σ : Type} [Backend σ] [Lasting α] {call : Call α}
  {view : Transient σ call.kind.name call.id}

/-- The cycles of a lone call build on one another. -/
structure Alone (w : Writers Unit α σ) : Prop where
  /-- What is stored shows all cycles that have written. -/
  shown_eq : w.shown = w.written
  /-- A snapshot that is to be written is based on what is stored. -/
  basis_eq : ∀ more s, w.phase () = .writing more s → w.basis () = w.shown
  /-- A snapshot that was written is stored. -/
  draft_eq : (w.phase ()).hasWritten = true → w.shown = w.draft ()

namespace Alone

omit [Mergeable α] [Backend σ] [Lasting α] in
theorem start (store : σ) : Alone (Writers.start (fun _ => call) store) where
  shown_eq := rfl
  basis_eq _ _ _ := rfl
  draft_eq h := by
    rw [Writers.start, Call.hasWritten_start] at h
    cases h

theorem turn {w : Writers Unit α σ} (h : Alone w) (hcall : call.Survives)
    (hsteady : view.Steady w.store) (now : Instant) : Alone (w.turn (fun _ => call) () now) := by
  obtain ⟨hturn, -⟩ :=
    Writers.turn_cases (fun _ : Unit => call) (i := ()) ⟨rfl, rfl, hcall⟩ hsteady now
  generalize w.turn (fun _ => call) () now = next at hturn
  cases hturn with
  | read hphase hstore =>
    refine ⟨h.shown_eq, fun _ _ _ => w.basis_noteRead_self () now, fun hwritten => ?_⟩
    rw [Writers.phase_goTo_self] at hwritten
    cases hwritten
  | write hphase hstore =>
    refine ⟨?_, fun more s hwriting => ?_, fun _ => rfl⟩
    · -- The cycle builds on all that have written.
      change w.basis () ++ [w.cycle ()] = w.written ++ [w.cycle ()]
      rw [h.basis_eq _ _ hphase, h.shown_eq]
    · rw [Writers.phase_goTo_self] at hwriting
      cases hwriting
  | check hphase hstore =>
    refine ⟨h.shown_eq, fun more s hwriting => ?_, fun _ => h.draft_eq (by rw [hphase]; rfl)⟩
    rw [Writers.phase_goTo_self] at hwriting
    cases hwriting
  | @fail more store hfails hstore =>
    refine ⟨h.shown_eq, fun _ s hwriting => ?_, fun hwritten => ?_⟩
    · rw [Writers.phase_goTo_self] at hwriting
      cases more <;> cases hwriting
    · rw [Writers.phase_goTo_self, Call.hasWritten_begin] at hwritten
      cases hwritten
  | rest hphase => exact h

theorem run (hcall : call.Survives) {w : Writers Unit α σ} (h : Alone w)
    {initial : Option Octets} (hinitial : Lasts (Call.stored initial : Snapshot α))
    (haccounted : Accounted view (fun _ => call) initial w) (turns : List (Unit × Instant)) :
    Alone (w.run (fun _ => call) turns) := by
  induction turns using List.reverseRecOn with
  | nil => exact h
  | append_singleton turns next ih =>
    have hsteady := (haccounted.run (fun _ => ⟨rfl, rfl, hcall⟩) hinitial turns).steady
    rw [Writers.run_append]
    exact ih.turn hcall hsteady next.2

end Alone

omit [Lasting α] in
/-- All steps of a call, with nobody else at work, are those of a lone writer. -/
theorem Writers.run_replicate (call : Call α) (now : Instant) {n : ℕ} {w : Writers Unit α σ}
    (h : (w.phase ()).left ≤ n) :
    (w.run (fun _ => call) (List.replicate n ((), now))).phase ()
        = .done (call.finish now (w.phase ()) w.store).1
      ∧ (w.run (fun _ => call) (List.replicate n ((), now))).store
        = (call.finish now (w.phase ()) w.store).2 := by
  induction n generalizing w with
  | zero =>
    cases hphase : w.phase () with
    | done result =>
      rw [Call.finish]
      exact ⟨hphase, rfl⟩
    | _ => simp [hphase] at h
  | succ n ih =>
    have hphase := phase_turn_self (fun _ : Unit => call) w () now
    have hleft : ((w.turn (fun _ => call) () now).phase ()).left ≤ n := by
      rw [hphase]
      cases hdone : (w.phase ()).isDone with
      | false =>
        have := call.left_step_lt now _ w.store hdone
        omega
      | true =>
        obtain ⟨result, hend⟩ := Phase.exists_done hdone
        rw [hend]
        exact Nat.zero_le n
    have hnext := ih hleft
    rw [hphase] at hnext
    rw [List.replicate_succ, Call.finish_step]
    exact hnext

omit [Lasting α] in
theorem Writers.run_cons_cons_cons (calls : Unit → Call α) (w : Writers Unit α σ)
    (first second third : Instant) (rest : List (Unit × Instant)) :
    w.run calls (((), first) :: ((), second) :: ((), third) :: rest)
      = (((w.turn calls () first).turn calls () second).turn calls () third).run calls rest := rfl

/-- Without faults, a call ends with a snapshot after it has read, written and checked once. -/
theorem Writers.exists_done_of_reliable (hreliable : view.Reliable) (hcall : call.Survives)
    (hid : EntityId.Valid call.id) (hattempts : 0 < call.attempts) {store : σ}
    (hsteady : view.Steady store)
    (hinitial : Lasts (Call.stored (view.contents store) : Snapshot α))
    (first second third : Instant) (rest : List (Unit × Instant)) :
    ∃ s, ((start (fun _ : Unit => call) store).run (fun _ => call)
      (((), first) :: ((), second) :: ((), third) :: rest)).phase () = .done (.ok s) := by
  have hcalls (i : Unit) : ((fun _ => call) i : Call α).For call.kind call.id := ⟨rfl, rfl, hcall⟩
  have hstart := Accounted.start (fun _ : Unit => call) hsteady
  have hreading : (start (fun _ : Unit => call) store).phase () = .reading (call.attempts - 1) :=
    Call.start_eq_reading hid hattempts
  obtain ⟨s, hwriting⟩ := hstart.exists_phase_turn_of_reading hreliable (hcalls ()) hreading first
  have hread := hstart.turn hcalls hinitial () first
  obtain ⟨hverifying, hshown⟩ := hread.phase_turn_of_writing hreliable (hcalls ()) hwriting second
  have hwritten := hread.turn hcalls hinitial () second
  have hdone := hwritten.phase_turn_of_verifying hcalls hinitial hverifying hshown
    (fun _ => hreliable.read hwritten.steady) third
  rw [run_cons_cons_cons]
  exact ⟨s, phase_run_of_done _ hdone rest⟩

variable [LawfulState α]

/-- Steps of a lone call on a store with transient faults: what was stored at first is stored until
a cycle has written, and from then on that with the update merged in once. When the call ends with a
snapshot, it is the one that is stored. The call ends after three steps for each of its cycles, and
without faults it ends with a snapshot after three steps. Where all steps have the same time, they
are the run of the call. -/
theorem Writers.exactlyOnce {call : Call α} (view : Transient σ call.kind.name call.id)
    (hcall : call.Survives) (hnodup : call.kind.tracked.Nodup) {store : σ}
    (hsteady : view.Steady store)
    (hstored : Survive (Call.stored (view.contents store) : Snapshot α)) (instants : List Instant) :
    let before : Snapshot α := Call.stored (view.contents store)
    let w := (start (fun _ : Unit => call) store).run (fun _ => call) (instants.map ((), ·))
    ((w.written = [] ∧ view.contents w.store = view.contents store)
        ∨ ∃ s, w.StoresOnce view call before s)
      ∧ (∀ s, w.phase () = .done (.ok s) → w.StoresOnce view call before s)
      ∧ (3 * call.attempts ≤ instants.length → (w.phase ()).isDone = true)
      ∧ (view.Reliable → EntityId.Valid call.id → 0 < call.attempts → 3 ≤ instants.length →
        ∃ s, w.phase () = .done (.ok s))
      ∧ (∀ now, instants = List.replicate (3 * call.attempts) now →
        w.phase () = .done (call.run now store).1 ∧ w.store = (call.run now store).2) := by
  intro before w
  have hbefore : Lasts before := Call.lasts_stored hstored
  have hcalls (i : Unit) : ((fun _ => call) i : Call α).For call.kind call.id := ⟨rfl, rfl, hcall⟩
  have hstart := Accounted.start (fun _ : Unit => call) hsteady
  have haccounted : Accounted view (fun _ => call) (view.contents store) w :=
    hstart.run hcalls hbefore _
  have halone : Alone w := Alone.run hcall (Alone.start store) hbefore hstart _
  -- What is stored after a write is the chain of all cycles that have written.
  have honce (hwritten : w.written ≠ []) :
      w.StoresOnce view call before (before.afterCycles (fun _ => call) w.shown) := by
    have hshown : w.shown ≠ [] := fun hnil => hwritten (haccounted.written_eq_nil_iff.mpr hnil)
    have hlasts := Snapshot.lasts_afterCycles (fun _ : Unit => hcall) hbefore w.shown
    have hfirst := List.head?_eq_some_head hwritten
    have hlast := List.getLast?_eq_some_getLast hwritten
    refine ⟨⟨haccounted.shows hshown, Snapshot.ofOctets?_render hlasts⟩, _, _, hfirst, hlast, ?_⟩
    rw [halone.shown_eq]
    exact Call.mergedOnce_of_repeated hcall hnodup hbefore hfirst hlast
  refine ⟨?_, ?_, ?_, ?_, ?_⟩
  · by_cases hwritten : w.written = []
    · exact .inl ⟨hwritten, haccounted.unwritten (haccounted.written_eq_nil_iff.mp hwritten)⟩
    · exact .inr ⟨_, honce hwritten⟩
  · intro s hdone
    have hshown : w.shown = w.draft () := halone.draft_eq (by rw [hdone]; rfl)
    have hwritten : w.written ≠ [] := by
      rw [← halone.shown_eq, hshown]
      exact List.concat_ne_nil _ _
    rw [haccounted.draft_eq () s (by rw [hdone]; rfl), ← hshown]
    exact honce hwritten
  · intro hlength
    apply isDone_of_le_count
    rw [List.map_map]
    simpa [Function.comp_def] using hlength
  · intro hreliable hid hattempts hlength
    obtain ⟨first, second, third, rest, hinstants⟩ :
        ∃ first second third rest, instants = first :: second :: third :: rest := by
      match instants, hlength with
      | first :: second :: third :: rest, _ => exact ⟨first, second, third, rest, rfl⟩
    have hdone := exists_done_of_reliable hreliable hcall hid hattempts hsteady hbefore first second
      third (rest.map ((), ·))
    rwa [← List.map_cons, ← List.map_cons, ← List.map_cons, ← hinstants] at hdone
  · intro now hinstants
    have hrun := run_replicate call now
      (w := start (fun _ : Unit => call) store) call.left_start_le
    rwa [← List.map_replicate, ← hinstants] at hrun

/-! ### A store that fails now and then -/

/-- A device that reports one count. -/
def countCall : Call SensorRecord where
  kind := .device
  id := "100"
  update := { geiger := some { cpm0 := some 7 } }
  origin := some { transport := "device-udp" }
  attempts := 4

/-- An empty memory that fails to read once, then fails to write once, and then fails to read what
was written. -/
def flaky : Faulty where
  memory := default
  reads := [.fails, .none, .none, .fails]
  writes := [.fails]

theorem survives_countCall : countCall.Survives := Call.survives_of_eq_nil rfl rfl

theorem onlyFails_flaky : flaky.OnlyFails := ⟨by decide, by decide⟩

/-- The time of a step. -/
def second (n : Nat) : Instant := (Instant.make? n 0).getD .epoch

/-- The call of the device at such a memory, with a step at every second. -/
def countSteps (n : Nat) : Writers Unit SensorRecord Faulty :=
  (Writers.start (fun _ => countCall) flaky).run (fun _ => countCall)
    (((List.range n).map second).map ((), ·))

theorem countSteps_succ (n : Nat) :
    countSteps (n + 1) = (countSteps n).turn (fun _ => countCall) () (second n) := by
  rw [countSteps, List.range_succ, List.map_append, List.map_append]
  exact Writers.run_append ..

/-- The fourth cycle of the call is checked with success. -/
theorem phase_countSteps : ∃ s, (countSteps 9).phase () = .done (.ok s) := by
  let view := Faulty.transient countCall.kind.name countCall.id
  have hstart : Accounted view (fun _ : Unit => countCall) (view.contents flaky)
      (Writers.start (fun _ => countCall) flaky) := Accounted.start _ onlyFails_flaky
  have haccounted := hstart.run (fun _ => ⟨rfl, rfl, survives_countCall⟩) Snapshot.lasts_empty
    (((List.range 8).map second).map ((), ·))
  have hwritten : ((countSteps 8).phase ()).hasWritten = true
      ∧ ((countSteps 8).phase ()).isDone = false ∧ (countSteps 8).shown ≠ [] := by
    decide +kernel
  have hread : (Backend.read (countSteps 8).store "device" "100").1.isOk = true := by
    decide +kernel
  obtain ⟨hphase, hdone, hshown⟩ := hwritten
  obtain ⟨more, s, hverifying⟩ := Phase.exists_verifying hphase hdone
  rw [countSteps_succ]
  refine ⟨s, haccounted.phase_turn_of_verifying (fun _ => ⟨rfl, rfl, survives_countCall⟩)
    Snapshot.lasts_empty hverifying hshown ?_ _⟩
  intro error herror
  cases hread.symm.trans (congrArg Except.isOk herror)

/-- The call ends with success after two cycles have written, and the count is remembered once, with
the time of the first of them. -/
theorem exactlyOnce_flaky :
    ∃ s, (countSteps 9).phase () = .done (.ok s) ∧ (countSteps 9).written.length = 2
      ∧ (Faulty.transient "device" "100").Holds (countSteps 9).store s
      ∧ s.geiger.entries.map HistoryEntry.changedAt = [second 3]
      ∧ s.updatedAt = some (second 6) := by
  obtain ⟨s, hdone⟩ := phase_countSteps
  have honce := (Writers.exactlyOnce (Faulty.transient countCall.kind.name countCall.id)
    survives_countCall (by decide) onlyFails_flaky Snapshot.lasts_empty.survive
    ((List.range 9).map second)).2.1 s hdone
  obtain ⟨hholds, first, last, hfirst, hlast, hmerged⟩ := honce
  have hwritten : (countSteps 9).written = [⟨(), second 3⟩, ⟨(), second 6⟩] := by decide +kernel
  cases hfirst.symm.trans (congrArg List.head? hwritten)
  cases hlast.symm.trans (congrArg List.getLast? hwritten)
  refine ⟨s, hdone, by rw [hwritten]; rfl, hholds, ?_, ?_⟩
  · have hhistory := hmerged.history .geiger
    -- The empty memory knows no counts, so the count of the update is a change.
    rw [if_pos (by decide)] at hhistory
    exact congrArg (List.map HistoryEntry.changedAt) hhistory
  · rw [hmerged.eq_onto]
    rfl

end Alone

end FieldTelemetry.Store
