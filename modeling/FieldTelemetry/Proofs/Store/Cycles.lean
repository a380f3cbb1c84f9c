import FieldTelemetry.Proofs.Store.Merge
import FieldTelemetry.Proofs.Store.States
import Mathlib.Data.List.Chain

/-!
# Chains of updates

The cycles of several calls merge their updates one after the other. A chain of cycles of one call
has the effect of its first one, but for the time of the update. In whatever order the cycles of
different calls come, the remembered changes stay in step with the latest values, and every value
comes from an update.

## Main definitions

* `Cycle`: a cycle of a call, with the time of its merge
* `Snapshot.afterCycles`: the snapshot after a chain of cycles
* `Snapshot.restamp`: the snapshot with another time of its update
* `Snapshot.InStep`: the remembered changes are in step with the latest values
* `Snapshot.SuppliedBy`: every value of a snapshot comes from an update

## Main results

* `Snapshot.afterCycles_repeat`: a chain of cycles of one call
* `Snapshot.InStep.afterCycles`, `Snapshot.SuppliedBy.afterCycles`: what stays under chains
-/

namespace FieldTelemetry.Store

open Time (Instant)

variable {α : Type} [Mergeable α]

/-! ## One update -/

omit [Mergeable α] in
theorem Snapshot.ext_history {s s' : Snapshot α} (hcurrent : s.current = s'.current)
    (hhistory : ∀ category, s.history category = s'.history category)
    (horigin : s.origin = s'.origin) (hupdated : s.updatedAt = s'.updatedAt) : s = s' := by
  obtain ⟨current, location, geiger, pms, opc, origin, updatedAt⟩ := s
  obtain rfl : location = _ := hhistory .location
  obtain rfl : geiger = _ := hhistory .geiger
  obtain rfl : pms = _ := hhistory .pms
  obtain rfl : opc = _ := hhistory .opc
  cases hcurrent
  cases horigin
  cases hupdated
  rfl

/-- Every change is remembered once. -/
theorem Snapshot.history_recordAll {categories : List Category} (hnodup : categories.Nodup)
    (s : Snapshot α) (id : String) (current : α) (now : Instant) (category : Category) :
    (s.recordAll id current categories now).history category
      = if category ∈ categories then
          (s.history category).push ⟨id, now, Mergeable.project current category⟩
        else s.history category := by
  induction categories generalizing s with
  | nil => rfl
  | cons first categories ih =>
    obtain ⟨hfirst, hnodup⟩ := List.nodup_cons.mp hnodup
    refine (ih hnodup _).trans ?_
    rw [history_record]
    by_cases heq : category = first
    · subst heq
      rw [if_neg hfirst, if_pos rfl, if_pos List.mem_cons_self]
    · simp only [List.mem_cons, heq, false_or, if_false]

namespace Call

variable (call : Call α) (s : Snapshot α) (now : Instant)

omit [Mergeable α] in
/-- What the update of a call says about entities of its kind. -/
def prepared : α := call.kind.prepare call.update

theorem mem_changes {category : Category} : category ∈ call.changes s
    ↔ category ∈ call.kind.tracked ∧ Alike.alike (Mergeable.project (call.current s) category)
      (Mergeable.project s.current category) = false := by
  rw [changes, List.mem_filter, Snapshot.changed, Bool.not_eq_true']

/-- The change of a category is remembered with its values and the time of the merge. -/
theorem history_onto_of_nodup (hnodup : call.kind.tracked.Nodup) (category : Category) :
    (call.onto s now).history category
      = if category ∈ call.changes s then
          (s.history category).push
            ⟨call.id, now, Mergeable.project (call.current s) category⟩
        else s.history category := by
  have hchanges : (call.changes s).Nodup := hnodup.filter _
  rw [history_onto, Snapshot.history_recordAll hchanges]

-- The kinds in use track no category twice.
example : EntityKind.device.tracked.Nodup ∧ EntityKind.value.tracked.Nodup
    ∧ EntityKind.gateway.tracked.Nodup ∧ EntityKind.server.tracked.Nodup := by decide

end Call

/-- The snapshot with another time of its update. -/
def Snapshot.restamp (s : Snapshot α) (now : Instant) : Snapshot α :=
  { s with updatedAt := some now }

section Again

variable [Lasting α] [LawfulState α]

/-- An update once more changes nothing but the time of the update. -/
theorem Call.onto_onto {call : Call α} {s : Snapshot α} (hlasts : Lasts (call.current s))
    (now later after : Instant) :
    call.onto ((call.onto s now).restamp later) after = (call.onto s now).restamp after := by
  have hcurrent : call.current ((call.onto s now).restamp later) = call.current s :=
    overlay_overlay s.current (call.kind.prepare call.update)
  -- The values of every category count as the same as themselves.
  have hchanges : call.changes ((call.onto s now).restamp later) = [] := by
    refine List.eq_nil_iff_forall_not_mem.mpr fun category hcategory => ?_
    have hchanged := ((call.mem_changes _).mp hcategory).2
    rw [hcurrent] at hchanged
    have hsame := alike_self (Lasting.lasts_project category hlasts)
    exact absurd (hsame.symm.trans hchanged) (by decide)
  apply Snapshot.ext_history
  · exact hcurrent
  · intro category
    rw [history_onto, hchanges]
    cases category <;> rfl
  · refine (call.origin_onto ..).trans ?_
    change call.origin.or (call.onto s now).origin = (call.onto s now).origin
    rw [origin_onto, ← Option.or_assoc, Option.or_self]
  · rfl

end Again

/-! ## Chains -/

/-- A cycle of a call that has read, with the time when it merged the update. -/
structure Cycle (ι : Type) where
  /-- The call. -/
  writer : ι
  /-- When the update was merged. -/
  mergedAt : Instant
deriving DecidableEq

section Chains

variable {ι : Type} (calls : ι → Call α)

/-- The snapshot after a chain of cycles. -/
def Snapshot.afterCycles (s : Snapshot α) (chain : List (Cycle ι)) : Snapshot α :=
  chain.foldl (fun s cycle => (calls cycle.writer).onto s cycle.mergedAt) s

theorem Snapshot.afterCycles_append (s : Snapshot α) (chain : List (Cycle ι)) (cycle : Cycle ι) :
    s.afterCycles calls (chain ++ [cycle])
      = (calls cycle.writer).onto (s.afterCycles calls chain) cycle.mergedAt :=
  List.foldl_append

variable {calls} [Lasting α]

/-- A snapshot lasts under a chain of cycles of calls whose numbers survive. -/
theorem Snapshot.lasts_afterCycles (hcalls : ∀ i, (calls i).Survives) {s : Snapshot α}
    (h : Lasts s) (chain : List (Cycle ι)) : Lasts (s.afterCycles calls chain) := by
  induction chain using List.reverseRecOn with
  | nil => exact h
  | append_singleton chain cycle ih =>
    rw [afterCycles_append]
    exact Call.lasts_onto (hcalls _) ih _

/-- A chain of cycles of one call has the effect of the first, and the time of the last. -/
theorem Snapshot.afterCycles_repeat [LawfulState α] {call : Call α} (hcall : call.Survives)
    {s : Snapshot α} (h : Lasts s) {chain : List (Cycle ι)} {first last : Cycle ι}
    (hfirst : chain.head? = some first) (hlast : chain.getLast? = some last) :
    s.afterCycles (fun _ => call) chain
      = (call.onto s first.mergedAt).restamp last.mergedAt := by
  have hlasts : Lasts (call.current s) := (Snapshot.lasts_iff.mp (Call.lasts_onto hcall h .epoch)).1
  induction chain using List.reverseRecOn generalizing last with
  | nil => cases hfirst
  | append_singleton chain cycle ih =>
    rw [List.getLast?_concat] at hlast
    cases hlast
    rw [afterCycles_append]
    rcases chain.eq_nil_or_concat' with rfl | ⟨front, previous, rfl⟩
    · cases hfirst
      rfl
    · rw [List.head?_append_of_ne_nil _ (List.concat_ne_nil _ _)] at hfirst
      rw [ih hfirst List.getLast?_concat, Call.onto_onto hlasts]

end Chains

/-! ## Remembered changes in step -/

/-- The values of a category that were remembered last, or those of the state of which nothing is
known. -/
def Snapshot.remembered (s : Snapshot α) (category : Category) : α :=
  ((s.history category).latest?.map HistoryEntry.values).getD (Mergeable.project default category)

/-- The remembered changes of some categories are in step with the latest values. -/
structure Snapshot.InStep (tracked : List Category) (s : Snapshot α) : Prop where
  /-- The values that were remembered last count as the same as the latest ones. -/
  newest : ∀ category ∈ tracked,
    Alike.alike (s.remembered category) (Mergeable.project s.current category) = true
  /-- Neighbouring changes differ. -/
  neighbours : ∀ category ∈ tracked,
    (s.history category).entries.IsChain fun a b => Alike.alike a.values b.values = false

namespace Snapshot.InStep

variable [Lasting α] [LawfulState α]

omit [Lasting α] in
theorem remembered_push {s : Snapshot α} {category : Category} {history : History α}
    {entry : HistoryEntry α} (h : s.history category = history.push entry) :
    s.remembered category = entry.values := by
  rw [remembered, h]
  rfl

theorem empty (tracked : List Category) : (Snapshot.empty : Snapshot α).InStep tracked where
  newest category _ := by
    have hsame := alike_self (Lasting.lasts_project (α := α) category Lasting.lasts_default)
    cases category <;> exact hsame
  neighbours category _ := by cases category <;> exact .nil

/-- Changes stay in step under an update. -/
theorem onto {call : Call α} (hnodup : call.kind.tracked.Nodup) (hcall : call.Survives)
    {s : Snapshot α} (hlasts : Lasts s) (h : s.InStep call.kind.tracked) (now : Instant) :
    (call.onto s now).InStep call.kind.tracked := by
  have hcurrent : Lasts (call.current s) := (lasts_iff.mp (Call.lasts_onto hcall hlasts now)).1
  have hhistory := call.history_onto_of_nodup s now hnodup
  constructor
  · intro category htracked
    rw [Call.current_onto]
    by_cases hchanged : category ∈ call.changes s
    · -- The values of a changed category have just been remembered.
      have hpush := (hhistory category).trans (if_pos hchanged)
      rw [remembered_push hpush]
      exact alike_self (Lasting.lasts_project category hcurrent)
    · have hstays := (hhistory category).trans (if_neg hchanged)
      have hremembered : (call.onto s now).remembered category = s.remembered category := by
        rw [remembered, remembered, hstays]
      have hsame : Alike.alike (Mergeable.project (call.current s) category)
          (Mergeable.project s.current category) = true := by
        by_contra hne
        exact hchanged ((call.mem_changes s).mpr ⟨htracked, Bool.eq_false_of_not_eq_true hne⟩)
      rw [hremembered]
      exact equivalence.trans (h.newest category htracked) (equivalence.symm hsame)
  · intro category htracked
    by_cases hchanged : category ∈ call.changes s
    · rw [hhistory category, if_pos hchanged, Ring.entries_push]
      refine (List.isChain_cons.mpr ⟨?_, h.neighbours category htracked⟩).take _
      intro entry hentry
      have hnew := ((call.mem_changes s).mp hchanged).2
      have hold : Alike.alike entry.values (Mergeable.project s.current category) = true := by
        have hnewest := h.newest category htracked
        rw [remembered, Ring.latest?, hentry] at hnewest
        exact hnewest
      -- The values remembered before count as the same as those before the update.
      by_contra hsame
      rw [Bool.not_eq_false] at hsame
      exact absurd ((equivalence.trans hsame hold).symm.trans hnew) (by decide)
    · rw [hhistory category, if_neg hchanged]
      exact h.neighbours category htracked

/-- Changes stay in step under a chain of cycles. -/
theorem afterCycles {ι : Type} {calls : ι → Call α} {kind : EntityKind α}
    (hnodup : kind.tracked.Nodup) (hkind : ∀ i, (calls i).kind = kind)
    (hcalls : ∀ i, (calls i).Survives) {s : Snapshot α} (hlasts : Lasts s)
    (h : s.InStep kind.tracked) (chain : List (Cycle ι)) :
    (s.afterCycles calls chain).InStep kind.tracked := by
  induction chain using List.reverseRecOn with
  | nil => exact h
  | append_singleton chain cycle ih =>
    rw [afterCycles_append]
    rw [← hkind cycle.writer] at hnodup ih ⊢
    exact ih.onto hnodup (hcalls _) (lasts_afterCycles hcalls hlasts chain) _

end Snapshot.InStep

/-! ## Where values come from -/

section Supplied

variable [Lasting α] [LawfulState α]

/-- Every value of a state comes from one of some updates. -/
def SuppliedBy (updates : List α) (x : α) : Prop :=
  ∀ field ∈ fields, ∀ leaf, field x = some leaf → ∃ update ∈ updates, field update = some leaf

/-- Every value of a snapshot comes from one of some updates. -/
structure Snapshot.SuppliedBy (updates : List α) (s : Snapshot α) : Prop where
  /-- The latest values. -/
  current : Store.SuppliedBy updates s.current
  /-- The values of remembered changes. -/
  history : ∀ category, ∀ entry ∈ (s.history category).entries,
    Store.SuppliedBy updates entry.values

variable {updates : List α}

theorem SuppliedBy.default : SuppliedBy updates (default : α) := by
  intro field hfield leaf hleaf
  rw [field_default field hfield] at hleaf
  cases hleaf

theorem SuppliedBy.project {x : α} (h : SuppliedBy updates x) (category : Category) :
    SuppliedBy updates (Mergeable.project x category) := by
  intro field hfield leaf hleaf
  rcases field_project field hfield x category with hnone | hsame
  · rw [hnone] at hleaf
    cases hleaf
  · exact h field hfield leaf (hsame ▸ hleaf)

theorem SuppliedBy.overlay {x update : α} (h : SuppliedBy updates x) (hupdate : update ∈ updates) :
    SuppliedBy updates (Overlay.overlay x update) := by
  intro field hfield leaf hleaf
  rw [field_overlay field hfield] at hleaf
  rcases Option.or_eq_some_iff.mp hleaf with hnew | ⟨-, hold⟩
  · exact ⟨update, hupdate, hnew⟩
  · exact h field hfield leaf hold

theorem Snapshot.SuppliedBy.empty : (Snapshot.empty : Snapshot α).SuppliedBy updates where
  current := Store.SuppliedBy.default
  history category entry hentry := by cases category <;> cases hentry

/-- Values come from updates under one of them. -/
theorem Snapshot.SuppliedBy.onto {call : Call α} {s : Snapshot α} (h : s.SuppliedBy updates)
    (hupdate : call.prepared ∈ updates) (now : Instant) :
    (call.onto s now).SuppliedBy updates := by
  have hcurrent : Store.SuppliedBy updates (call.current s) := h.current.overlay hupdate
  refine ⟨hcurrent, ?_⟩
  intro category
  rw [Call.history_onto]
  exact forall_entry_recordAll call.id (call.changes s) now hcurrent.project h.history category

/-- After a chain of cycles every value comes from the updates of the chain. -/
theorem Snapshot.SuppliedBy.afterCycles {ι : Type} {calls : ι → Call α} {s : Snapshot α}
    (h : s.SuppliedBy updates) {chain : List (Cycle ι)}
    (hchain : ∀ cycle ∈ chain, (calls cycle.writer).prepared ∈ updates) :
    (s.afterCycles calls chain).SuppliedBy updates := by
  induction chain using List.reverseRecOn with
  | nil => exact h
  | append_singleton chain cycle ih =>
    rw [List.forall_mem_append, List.forall_mem_singleton] at hchain
    rw [afterCycles_append]
    exact (ih hchain.1).onto hchain.2 _

end Supplied

end FieldTelemetry.Store
