import FieldTelemetry.Proofs.Store.Cycles
import FieldTelemetry.Proofs.Store.Transient

/-!
# Writers at one store

Several calls for one entity take their steps in any order, and nothing keeps them apart. Each cycle
merges into the snapshot that it has read, so its own snapshot shows the cycles that were stored
then and itself.

## Main definitions

* `Writers`: calls at work at one store
* `Writers.turn`, `Writers.run`: a step of one of them, and steps of several
* `Turn`: what a step can be
* `Transient.Holds`: a snapshot is stored
* `Accounted`: what is stored and what is to be written are chains of cycles

## Main results

* `Writers.turn_cases`: every step is one of these
* `Accounted.run`: whatever the order of the steps
-/

namespace FieldTelemetry.Store

open Time (Instant)

/-- The snapshot that a call is about to write or has written in its cycle. -/
def Phase.snapshot? {α : Type} : Phase α → Option (Snapshot α)
  | .writing _ s | .verifying _ s | .done (.ok s) => some s
  | _ => none

/-- The call has written in its cycle, or has ended with what it wrote. -/
def Phase.hasWritten {α : Type} : Phase α → Bool
  | .verifying _ _ | .done (.ok _) => true
  | _ => false

theorem Phase.exists_done {α : Type} {phase : Phase α} (h : phase.isDone = true) :
    ∃ result, phase = .done result := by
  cases phase with
  | done result => exact ⟨result, rfl⟩
  | _ => cases h

theorem Phase.exists_verifying {α : Type} {phase : Phase α} (hwritten : phase.hasWritten = true)
    (hdone : phase.isDone = false) : ∃ more s, phase = .verifying more s := by
  cases phase with
  | verifying more s => exact ⟨more, s, rfl⟩
  | done result => cases hdone
  | _ => cases hwritten

theorem Call.snapshot?_begin {α : Type} (call : Call α) (left : Nat) :
    (call.begin left : Phase α).snapshot? = none := by
  cases left <;> rfl

theorem Call.hasWritten_begin {α : Type} (call : Call α) (left : Nat) :
    (call.begin left : Phase α).hasWritten = false := by
  cases left <;> rfl

theorem Call.snapshot?_start {α : Type} (call : Call α) :
    (call.start : Phase α).snapshot? = none := by
  rw [start]
  split
  · exact call.snapshot?_begin _
  · rfl

theorem Call.hasWritten_start {α : Type} (call : Call α) :
    (call.start : Phase α).hasWritten = false := by
  rw [start]
  split
  · exact call.hasWritten_begin _
  · rfl

theorem Call.left_start_le {α : Type} (call : Call α) :
    (call.start : Phase α).left ≤ 3 * call.attempts := by
  rw [start]
  split
  · exact call.left_begin_le _
  · exact Nat.zero_le _

/-- Calls at work at one store. -/
structure Writers (ι α σ : Type) where
  /-- The store. -/
  store : σ
  /-- How far the calls have come. -/
  phase : ι → Phase α
  /-- The cycles that the snapshot showed that a call read last. -/
  basis : ι → List (Cycle ι)
  /-- When a call merged its update last. -/
  mergedAt : ι → Instant
  /-- The cycles that the stored snapshot shows. -/
  shown : List (Cycle ι)
  /-- The cycles whose snapshots were written, in the order of their writes. -/
  written : List (Cycle ι)

namespace Writers

variable {ι α σ : Type}

/-- The cycle of a call. -/
def cycle (w : Writers ι α σ) (i : ι) : Cycle ι := ⟨i, w.mergedAt i⟩

/-- The cycles that the snapshot of a call shows. -/
def draft (w : Writers ι α σ) (i : ι) : List (Cycle ι) := w.basis i ++ [w.cycle i]

variable [DecidableEq ι]

/-- A call has come to another phase, with the store in another state. -/
def goTo (w : Writers ι α σ) (i : ι) (phase : Phase α) (store : σ) : Writers ι α σ :=
  { w with store, phase := Function.update w.phase i phase }

/-- A call has read what is stored. -/
def noteRead (w : Writers ι α σ) (i : ι) (now : Instant) : Writers ι α σ :=
  { w with
    basis := Function.update w.basis i w.shown
    mergedAt := Function.update w.mergedAt i now }

omit [DecidableEq ι] in
/-- A call has written its snapshot. -/
def noteWrite (w : Writers ι α σ) (i : ι) : Writers ι α σ :=
  { w with shown := w.draft i, written := w.written ++ [w.cycle i] }

/-- What is noted when a call goes from one phase to another. -/
def note (w : Writers ι α σ) (i : ι) (now : Instant) : Phase α → Phase α → Writers ι α σ
  | .reading _, .writing _ _ => w.noteRead i now
  | .writing _ _, .verifying _ _ => w.noteWrite i
  | _, _ => w

theorem note_begin (w : Writers ι α σ) (i : ι) (now : Instant) (phase : Phase α) (call : Call α)
    (left : Nat) : w.note i now phase (call.begin left) = w := by
  cases phase <;> cases left <;> rfl

theorem basis_noteRead_self (w : Writers ι α σ) (i : ι) (now : Instant) :
    (w.noteRead i now).basis i = w.shown :=
  Function.update_self ..

theorem basis_noteRead_of_ne {i j : ι} (h : j ≠ i) (w : Writers ι α σ) (now : Instant) :
    (w.noteRead i now).basis j = w.basis j :=
  Function.update_of_ne h ..

theorem draft_noteRead_self (w : Writers ι α σ) (i : ι) (now : Instant) :
    (w.noteRead i now).draft i = w.shown ++ [⟨i, now⟩] := by
  simp only [draft, cycle, noteRead, Function.update_self]

theorem draft_noteRead_of_ne {i j : ι} (h : j ≠ i) (w : Writers ι α σ) (now : Instant) :
    (w.noteRead i now).draft j = w.draft j := by
  simp only [draft, cycle, noteRead, Function.update_of_ne h]

@[simp]
theorem phase_goTo_self (w : Writers ι α σ) (i : ι) (phase : Phase α) (store : σ) :
    (w.goTo i phase store).phase i = phase :=
  Function.update_self ..

theorem phase_goTo_of_ne {i j : ι} (h : j ≠ i) (w : Writers ι α σ) (phase : Phase α) (store : σ) :
    (w.goTo i phase store).phase j = w.phase j :=
  Function.update_of_ne h ..

theorem goTo_self {w : Writers ι α σ} {i : ι} {phase : Phase α} (h : w.phase i = phase) :
    w.goTo i phase w.store = w := by
  rw [goTo, ← h, Function.update_eq_self]

variable [Mergeable α] [Backend σ] (calls : ι → Call α)

omit [DecidableEq ι] in
/-- Calls that have not begun. -/
def start (store : σ) : Writers ι α σ where
  store := store
  phase i := (calls i).start
  basis _ := []
  mergedAt _ := .epoch
  shown := []
  written := []

/-- A step of a call. -/
def turn (w : Writers ι α σ) (i : ι) (now : Instant) : Writers ι α σ :=
  let next := (calls i).step now (w.phase i) w.store
  (w.note i now (w.phase i) next.1).goTo i next.1 next.2

/-- Steps of calls, one after the other. -/
def run (w : Writers ι α σ) (turns : List (ι × Instant)) : Writers ι α σ :=
  turns.foldl (fun w turn => w.turn calls turn.1 turn.2) w

theorem run_append (w : Writers ι α σ) (turns : List (ι × Instant)) (i : ι) (now : Instant) :
    w.run calls (turns ++ [(i, now)]) = (w.run calls turns).turn calls i now :=
  List.foldl_append

end Writers

/-! ## Ends of calls -/

namespace Writers

variable {ι α σ : Type} [DecidableEq ι] [Mergeable α] [Backend σ] (calls : ι → Call α)

theorem phase_turn_self (w : Writers ι α σ) (i : ι) (now : Instant) :
    (w.turn calls i now).phase i = ((calls i).step now (w.phase i) w.store).1 :=
  phase_goTo_self ..

theorem phase_turn_of_ne {i j : ι} (h : j ≠ i) (w : Writers ι α σ) (now : Instant) :
    (w.turn calls i now).phase j = w.phase j := by
  rw [turn, phase_goTo_of_ne h]
  -- What is noted says nothing about phases.
  unfold note
  split <;> rfl

/-- A call that has ended takes no more steps. -/
theorem phase_run_of_done {w : Writers ι α σ} {i : ι} {result : Except StoreError (Snapshot α)}
    (h : w.phase i = .done result) (turns : List (ι × Instant)) :
    (w.run calls turns).phase i = .done result := by
  induction turns using List.reverseRecOn with
  | nil => exact h
  | append_singleton turns next ih =>
    rw [run_append]
    by_cases hnext : i = next.1
    · subst hnext
      rw [phase_turn_self, ih]
      rfl
    · rw [phase_turn_of_ne calls hnext, ih]

/-- A call has ended, or it has taken some of its steps and has the others left. -/
theorem isDone_or_left_le (store : σ) (turns : List (ι × Instant)) (i : ι) :
    (((start calls store).run calls turns).phase i).isDone = true
      ∨ (((start calls store).run calls turns).phase i).left + (turns.map Prod.fst).count i
        ≤ 3 * (calls i).attempts := by
  induction turns using List.reverseRecOn with
  | nil => exact .inr (calls i).left_start_le
  | append_singleton turns next ih =>
    rw [run_append, List.map_append, List.count_append, List.map_singleton]
    by_cases hnext : i = next.1
    · subst hnext
      rw [phase_turn_self, List.count_singleton_self]
      cases hdone : (((start calls store).run calls turns).phase next.1).isDone with
      | false =>
        have hleft := ih.resolve_left (by rw [hdone]; decide)
        have hlt := (calls next.1).left_step_lt next.2 _
          ((start calls store).run calls turns).store hdone
        exact .inr (by omega)
      | true =>
        obtain ⟨result, hphase⟩ := Phase.exists_done hdone
        rw [hphase]
        exact .inl rfl
    · rw [phase_turn_of_ne calls hnext, List.count_singleton, if_neg (by simpa using Ne.symm hnext)]
      exact ih

/-- A call ends after three steps for each of its cycles. -/
theorem isDone_of_le_count (store : σ) {turns : List (ι × Instant)} {i : ι}
    (h : 3 * (calls i).attempts ≤ (turns.map Prod.fst).count i) :
    (((start calls store).run calls turns).phase i).isDone = true := by
  rcases isDone_or_left_le calls store turns i with hdone | hleft
  · exact hdone
  · generalize ((start calls store).run calls turns).phase i = phase at hleft
    cases phase with
    | done result => rfl
    | _ => simp at hleft; omega

end Writers

/-! ## Steps -/

section Steps

variable {ι α σ : Type} [Mergeable α] [Backend σ] {kind : EntityKind α} {id : String}
  (view : Transient σ kind.name id)

/-- A cycle fails, with so many more after it. -/
inductive Call.Fails (state : σ) : Phase α → Nat → Prop
  /-- Nothing could be read. -/
  | read {more : Nat} {error : StoreError}
    (h : (Backend.read state kind.name id).1 = .error error) : Fails state (.reading more) more
  /-- Nothing could be written. -/
  | write {more : Nat} {s : Snapshot α} {octets : Octets} {now : Instant} {error : StoreError}
    (h : (Backend.write state kind.name id octets now).1 = .error error) :
    Fails state (.writing more s) more
  /-- Nothing could be read again, or what was read is no snapshot. -/
  | check {more : Nat} {s : Snapshot α}
    (h : (∃ error, (Backend.read state kind.name id).1 = .error error)
      ∨ Call.verified α (.ok (view.contents state)) = false) :
    Fails state (.verifying more s) more

variable [DecidableEq ι] (calls : ι → Call α)

/-- What a step of a call can be. -/
inductive Turn (w : Writers ι α σ) (i : ι) (now : Instant) : Writers ι α σ → Prop
  /-- The snapshot is read and the update merged into it. -/
  | read {more : Nat} {store : σ} (hphase : w.phase i = .reading more)
    (hstore : view.contents store = view.contents w.store) :
    Turn w i now
      ((w.noteRead i now).goTo i (.writing more ((calls i).merged (view.contents w.store) now))
        store)
  /-- The snapshot is written. -/
  | write {more : Nat} {s : Snapshot α} {store : σ} (hphase : w.phase i = .writing more s)
    (hstore : view.contents store = some s.render) :
    Turn w i now
      ((w.noteWrite i).goTo i (.verifying more s) store)
  /-- The call ends with a snapshot. -/
  | check {more : Nat} {s : Snapshot α} {store : σ} (hphase : w.phase i = .verifying more s)
    (hstore : view.contents store = view.contents w.store) :
    Turn w i now (w.goTo i (.done (.ok s)) store)
  /-- The cycle fails. -/
  | fail {more : Nat} {store : σ} (hfails : Call.Fails view w.store (w.phase i) more)
    (hstore : view.contents store = view.contents w.store) :
    Turn w i now (w.goTo i ((calls i).begin more) store)
  /-- The call has ended. -/
  | rest {result : Except StoreError (Snapshot α)} (hphase : w.phase i = .done result) :
    Turn w i now w

/-- Calls for an entity of a kind, with numbers that survive. -/
structure Call.For [Lasting α] (kind : EntityKind α) (id : String) (call : Call α) : Prop where
  /-- They are calls of the kind. -/
  kind_eq : call.kind = kind
  /-- They are calls for the entity. -/
  id_eq : call.id = id
  /-- Their numbers survive. -/
  survives : call.Survives

variable {view} [Lasting α]

/-- Every step is one of these, and leaves a store with transient faults. -/
theorem Writers.turn_cases {w : Writers ι α σ} {i : ι} (hcall : (calls i).For kind id)
    (hsteady : view.Steady w.store) (now : Instant) :
    Turn view calls w i now (w.turn calls i now) ∧ view.Steady (w.turn calls i now).store := by
  have hread : Backend.read w.store (calls i).kind.name (calls i).id
      = Backend.read w.store kind.name id := by rw [hcall.kind_eq, hcall.id_eq]
  have hwrite (octets : Octets) : Backend.write w.store (calls i).kind.name (calls i).id octets now
      = Backend.write w.store kind.name id octets now := by rw [hcall.kind_eq, hcall.id_eq]
  have hstore := view.contents_read hsteady
  have hnext := view.steady_read hsteady
  cases hphase : w.phase i with
  | reading more =>
    rw [turn, hphase, Call.step, hread]
    split
    · rename_i error store heq
      rw [heq] at hstore hnext
      dsimp only
      rw [note_begin]
      have hfails : Call.Fails view w.store (w.phase i) more := by
        rw [hphase]
        exact .read (by rw [heq])
      exact ⟨.fail hfails hstore, hnext⟩
    · rename_i text store heq
      rw [heq] at hstore hnext
      have htext : text = view.contents w.store := view.read_ok hsteady (by rw [heq])
      subst htext
      exact ⟨.read hphase hstore, hnext⟩
  | writing more s =>
    rw [turn, hphase, Call.step, hwrite]
    have hnext := view.steady_write s.render now hsteady
    split
    · rename_i error store heq
      have hstore := view.write_error hsteady (congrArg Prod.fst heq)
      rw [heq] at hstore hnext
      dsimp only
      rw [note_begin]
      have hfails : Call.Fails view w.store (w.phase i) more := by
        rw [hphase]
        exact .write (congrArg Prod.fst heq)
      exact ⟨.fail hfails hstore, hnext⟩
    · rename_i store heq
      have hstore := view.write_ok hsteady (congrArg Prod.fst heq)
      rw [heq] at hstore hnext
      exact ⟨.write hphase hstore, hnext⟩
  | verifying more s =>
    rw [turn, hphase, Call.step, hread]
    split
    rename_i answer store heq
    rw [heq] at hstore hnext
    by_cases hverified : Call.verified α answer = true
    · rw [if_pos hverified]
      exact ⟨.check hphase hstore, hnext⟩
    · rw [if_neg hverified]
      dsimp only
      rw [note_begin]
      have hfails : Call.Fails view w.store (w.phase i) more := by
        rw [hphase]
        apply Call.Fails.check
        cases answer with
        | error error => exact .inl ⟨error, congrArg Prod.fst heq⟩
        | ok text =>
          have htext : text = view.contents w.store := view.read_ok hsteady (congrArg Prod.fst heq)
          exact .inr (htext ▸ Bool.eq_false_of_not_eq_true hverified)
      exact ⟨.fail hfails hstore, hnext⟩
  | done result =>
    have hsame : w.turn calls i now = w := by
      rw [turn, hphase]
      exact goTo_self hphase
    rw [hsame]
    exact ⟨.rest hphase, hsteady⟩

end Steps

/-! ## What is stored -/

/-- A snapshot is stored: what is stored for the entity was written for it, and it is read from
there. -/
structure Transient.Holds {α σ : Type} [Mergeable α] [Backend σ] {kind id : String}
    (view : Transient σ kind id) (store : σ) (s : Snapshot α) : Prop where
  /-- Its contents are stored. -/
  contents : view.contents store = some s.render
  /-- It is read from its contents. -/
  readBack : Snapshot.ofOctets? s.render = some s

section Accounts

variable {ι α σ : Type} [Mergeable α] [Backend σ] {kind : EntityKind α} {id : String}
  (view : Transient σ kind.name id) (calls : ι → Call α)

/-- What is stored, and what calls are about to write, are chains of the cycles whose snapshots were
written, merged into what was stored at first. -/
structure Accounted (initial : Option Octets) (w : Writers ι α σ) : Prop where
  /-- The faults of the store are transient. -/
  steady : view.Steady w.store
  /-- What was stored at first is stored until the first write. -/
  unwritten : w.shown = [] → view.contents w.store = initial
  /-- Then a snapshot is stored that shows some cycles. -/
  shows : w.shown ≠ [] →
    view.contents w.store = some ((Call.stored initial).afterCycles calls w.shown).render
  /-- These cycles were written, in this order. -/
  shown_sublist : w.shown.Sublist w.written
  /-- The last of them was written last. -/
  getLast?_shown : w.shown.getLast? = w.written.getLast?
  /-- Calls have read snapshots that show cycles that were written, in this order. -/
  basis_sublist : ∀ i, (w.basis i).Sublist w.written
  /-- The snapshot of a call shows what it has read and its own cycle. -/
  draft_eq : ∀ i, ∀ s ∈ (w.phase i).snapshot?,
    s = (Call.stored initial).afterCycles calls (w.draft i)

namespace Accounted

variable {view} {initial : Option Octets} {w : Writers ι α σ}

theorem start {store : σ} (hsteady : view.Steady store) :
    Accounted view calls (view.contents store) (Writers.start calls store) where
  steady := hsteady
  unwritten _ := rfl
  shows h := absurd rfl h
  shown_sublist := .refl _
  getLast?_shown := rfl
  basis_sublist _ := .refl _
  draft_eq i s hs := by
    rw [Writers.start, Call.snapshot?_start] at hs
    cases hs

variable {calls}

theorem written_eq_nil_iff (h : Accounted view calls initial w) :
    w.written = [] ↔ w.shown = [] := by
  rw [← List.getLast?_eq_none_iff, ← List.getLast?_eq_none_iff, h.getLast?_shown]

variable [Lasting α]

/-- The snapshot that is read shows the cycles that are stored. -/
theorem stored_eq (h : Accounted view calls initial w) (hcalls : ∀ i, (calls i).Survives)
    (hinitial : Lasts (Call.stored initial : Snapshot α)) :
    Call.stored (view.contents w.store) = (Call.stored initial).afterCycles calls w.shown := by
  by_cases hshown : w.shown = []
  · rw [h.unwritten hshown, hshown]
    rfl
  · have hlasts := Snapshot.lasts_afterCycles hcalls hinitial w.shown
    rw [h.shows hshown, Call.stored, Option.bind_some, Snapshot.ofOctets?_render hlasts,
      Option.getD_some]

/-- What is stored after a write passes the check. -/
theorem verified (h : Accounted view calls initial w) (hcalls : ∀ i, (calls i).Survives)
    (hinitial : Lasts (Call.stored initial : Snapshot α)) (hshown : w.shown ≠ []) :
    Call.verified α (.ok (view.contents w.store)) = true := by
  have hlasts := Snapshot.lasts_afterCycles hcalls hinitial w.shown
  rw [h.shows hshown, Call.verified, Snapshot.ofOctets?_render hlasts]
  rfl

variable [DecidableEq ι]

omit [Backend σ] [Lasting α] in
/-- A call comes to a phase whose snapshot shows its cycles. -/
theorem draft_goTo {w : Writers ι α σ} {i : ι} {phase : Phase α}
    (hphase : ∀ s ∈ phase.snapshot?, s = (Call.stored initial).afterCycles calls (w.draft i))
    (h : ∀ j ≠ i, ∀ s ∈ (w.phase j).snapshot?,
      s = (Call.stored initial).afterCycles calls (w.draft j)) (store : σ) :
    ∀ j, ∀ s ∈ ((w.goTo i phase store).phase j).snapshot?,
      s = (Call.stored initial).afterCycles calls ((w.goTo i phase store).draft j) := by
  intro j s hs
  by_cases hj : j = i
  · subst hj
    rw [Writers.phase_goTo_self] at hs
    exact hphase s hs
  · rw [Writers.phase_goTo_of_ne hj] at hs
    exact h j hj s hs

theorem turn (h : Accounted view calls initial w) (hcalls : ∀ i, (calls i).For kind id)
    (hinitial : Lasts (Call.stored initial : Snapshot α)) (i : ι) (now : Instant) :
    Accounted view calls initial (w.turn calls i now) := by
  obtain ⟨hturn, hsteady⟩ := Writers.turn_cases calls (hcalls i) h.steady now
  have hstored := h.stored_eq (fun i => (hcalls i).survives) hinitial
  generalize w.turn calls i now = next at hturn hsteady
  cases hturn with
  | read hphase hstore =>
    refine ⟨hsteady, fun hnil => hstore.trans (h.unwritten hnil),
      fun hne => hstore.trans (h.shows hne), h.shown_sublist, h.getLast?_shown, ?_, ?_⟩
    · intro j
      change ((w.noteRead i now).basis j).Sublist w.written
      by_cases hj : j = i
      · rw [hj, Writers.basis_noteRead_self]
        exact h.shown_sublist
      · rw [Writers.basis_noteRead_of_ne hj]
        exact h.basis_sublist j
    · apply draft_goTo
      · -- The update is merged into the snapshot that is stored.
        rintro s ⟨⟩
        rw [Call.merged_eq, hstored, Writers.draft_noteRead_self, Snapshot.afterCycles_append]
      · intro j hj
        rw [Writers.draft_noteRead_of_ne hj]
        exact h.draft_eq j
  | @write _ s _ hphase hstore =>
    have hdraft : s = (Call.stored initial).afterCycles calls (w.draft i) :=
      h.draft_eq i s (by rw [hphase]; rfl)
    refine ⟨hsteady, fun hnil => absurd hnil (List.concat_ne_nil _ _), fun _ => ?_,
      (h.basis_sublist i).append (.refl _), List.getLast?_concat.trans List.getLast?_concat.symm,
      fun j => (h.basis_sublist j).trans (List.sublist_append_left _ _), ?_⟩
    · exact hstore.trans (congrArg (fun s => some (Snapshot.render s)) hdraft)
    · apply draft_goTo
      · rintro _ ⟨⟩
        exact hdraft
      · exact fun j _ => h.draft_eq j
  | @check _ s _ hphase hstore =>
    refine ⟨hsteady, fun hnil => hstore.trans (h.unwritten hnil),
      fun hne => hstore.trans (h.shows hne), h.shown_sublist, h.getLast?_shown,
      h.basis_sublist, draft_goTo ?_ (fun j _ => h.draft_eq j) _⟩
    rintro _ ⟨⟩
    exact h.draft_eq i s (by rw [hphase]; rfl)
  | fail hfails hstore =>
    refine ⟨hsteady, fun hnil => hstore.trans (h.unwritten hnil),
      fun hne => hstore.trans (h.shows hne), h.shown_sublist, h.getLast?_shown,
      h.basis_sublist, draft_goTo ?_ (fun j _ => h.draft_eq j) _⟩
    intro s hs
    rw [Call.snapshot?_begin] at hs
    cases hs
  | rest hphase => exact h

/-- A call that can read what was written ends with its snapshot. -/
theorem phase_turn_of_verifying (h : Accounted view calls initial w)
    (hcalls : ∀ i, (calls i).For kind id) (hinitial : Lasts (Call.stored initial : Snapshot α))
    {i : ι} {more : Nat} {s : Snapshot α} (hphase : w.phase i = .verifying more s)
    (hshown : w.shown ≠ []) (hread : ∀ error, (Backend.read w.store kind.name id).1 ≠ .error error)
    (now : Instant) : (w.turn calls i now).phase i = .done (.ok s) := by
  have hverified := h.verified (fun i => (hcalls i).survives) hinitial hshown
  obtain ⟨hturn, -⟩ := Writers.turn_cases calls (hcalls i) h.steady now
  generalize w.turn calls i now = next at hturn
  cases hturn with
  | read hreading _ => cases hphase.symm.trans hreading
  | write hwriting _ => cases hphase.symm.trans hwriting
  | check hverifying _ =>
    cases hphase.symm.trans hverifying
    exact Writers.phase_goTo_self ..
  | fail hfails _ =>
    rw [hphase] at hfails
    cases hfails with
    | check hfailed =>
      rcases hfailed with ⟨error, herror⟩ | hrefused
      · exact absurd herror (hread error)
      · exact absurd (hverified.symm.trans hrefused) (by decide)
  | rest hdone => cases hphase.symm.trans hdone

omit [DecidableEq ι] in
/-- No cycle fails on a store whose operations do not fail. -/
theorem not_fails (h : Accounted view calls initial w) (hreliable : view.Reliable)
    (hcalls : ∀ i, (calls i).Survives) (hinitial : Lasts (Call.stored initial : Snapshot α))
    {phase : Phase α} (hshown : phase.hasWritten = true → w.shown ≠ []) {more : Nat} :
    ¬ Call.Fails view w.store phase more := by
  intro hfails
  cases hfails with
  | read herror => exact hreliable.read h.steady herror
  | write herror => exact hreliable.write h.steady herror
  | check hfailed =>
    have hverified := h.verified hcalls hinitial (hshown rfl)
    rcases hfailed with ⟨error, herror⟩ | hrefused
    · exact hreliable.read h.steady herror
    · exact absurd (hverified.symm.trans hrefused) (by decide)

/-- A call that reads goes on to write when its read does not fail. -/
theorem exists_phase_turn_of_reading (h : Accounted view calls initial w)
    (hreliable : view.Reliable) {i : ι} (hcall : (calls i).For kind id) {more : Nat}
    (hphase : w.phase i = .reading more) (now : Instant) :
    ∃ s, (w.turn calls i now).phase i = .writing more s := by
  obtain ⟨hturn, -⟩ := Writers.turn_cases calls hcall h.steady now
  generalize w.turn calls i now = next at hturn
  cases hturn with
  | read hreading _ =>
    cases hphase.symm.trans hreading
    exact ⟨_, Writers.phase_goTo_self ..⟩
  | write hwriting _ => cases hphase.symm.trans hwriting
  | check hverifying _ => cases hphase.symm.trans hverifying
  | fail hfails _ =>
    rw [hphase] at hfails
    cases hfails with
    | read herror => exact absurd herror (hreliable.read h.steady)
  | rest hdone => cases hphase.symm.trans hdone

/-- A call that writes goes on to check when its write does not fail. -/
theorem phase_turn_of_writing (h : Accounted view calls initial w) (hreliable : view.Reliable)
    {i : ι} (hcall : (calls i).For kind id) {more : Nat} {s : Snapshot α}
    (hphase : w.phase i = .writing more s) (now : Instant) :
    (w.turn calls i now).phase i = .verifying more s ∧ (w.turn calls i now).shown ≠ [] := by
  obtain ⟨hturn, -⟩ := Writers.turn_cases calls hcall h.steady now
  generalize w.turn calls i now = next at hturn
  cases hturn with
  | read hreading _ => cases hphase.symm.trans hreading
  | write hwriting _ =>
    cases hphase.symm.trans hwriting
    exact ⟨Writers.phase_goTo_self .., List.concat_ne_nil _ _⟩
  | check hverifying _ => cases hphase.symm.trans hverifying
  | fail hfails _ =>
    rw [hphase] at hfails
    cases hfails with
    | write herror => exact absurd herror (hreliable.write h.steady)
  | rest hdone => cases hphase.symm.trans hdone

/-- Whatever the order of the steps, what is stored is accounted for. -/
theorem run (h : Accounted view calls initial w) (hcalls : ∀ i, (calls i).For kind id)
    (hinitial : Lasts (Call.stored initial : Snapshot α)) (turns : List (ι × Instant)) :
    Accounted view calls initial (w.run calls turns) := by
  induction turns using List.reverseRecOn with
  | nil => exact h
  | append_singleton turns next ih =>
    rw [Writers.run_append]
    exact ih.turn hcalls hinitial next.1 next.2

end Accounted

end Accounts

end FieldTelemetry.Store
