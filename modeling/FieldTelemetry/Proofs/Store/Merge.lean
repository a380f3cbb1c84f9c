import FieldTelemetry.Proofs.Store.Snapshot
import FieldTelemetry.Store.Reconcile

/-!
# Updates of snapshots

What an update makes of a snapshot does not depend on when anything was merged, but for the times
that it notes. The snapshot lasts when the one before does and the numbers of the update survive.

## Main definitions

* `Snapshot.content`: what a snapshot says besides the times of its updates
* `Call.onto`: the snapshot after the update of a call

## Main results

* `Call.content_onto`: the content after an update depends on the content before it
* `Call.lasts_onto`: a snapshot lasts under updates
-/

namespace FieldTelemetry.Store

open Json (Lossless)
open Json.Lossless (optionNumbers)
open Time (Instant)

/-! ## Content -/

section Content

variable {α : Type}

/-- What a remembered change says besides its time. -/
def HistoryEntry.content (entry : HistoryEntry α) : String × α := (entry.entityId, entry.values)

/-- What a snapshot says besides the times of its updates: the latest values, the remembered changes
of every category, and where the latest update came from. -/
def Snapshot.content (s : Snapshot α) : α × (Category → List (String × α)) × Option Origin :=
  (s.current, fun category => (s.history category).entries.map HistoryEntry.content, s.origin)

theorem Snapshot.content_eq_iff {s s' : Snapshot α} :
    s.content = s'.content ↔ s.current = s'.current
      ∧ (∀ category, (s.history category).entries.map HistoryEntry.content
        = (s'.history category).entries.map HistoryEntry.content)
      ∧ s.origin = s'.origin := by
  rw [content, content, Prod.mk.injEq, Prod.mk.injEq, funext_iff]

theorem Snapshot.history_record (s : Snapshot α) (category other : Category)
    (entry : HistoryEntry α) : (s.record category entry).history other
      = if other = category then (s.history other).push entry else s.history other := by
  cases category <;> cases other <;> rfl

theorem Snapshot.current_record (s : Snapshot α) (category : Category) (entry : HistoryEntry α) :
    (s.record category entry).current = s.current := by
  cases category <;> rfl

theorem Snapshot.origin_record (s : Snapshot α) (category : Category) (entry : HistoryEntry α) :
    (s.record category entry).origin = s.origin := by
  cases category <;> rfl

theorem Snapshot.content_record {s s' : Snapshot α} (h : s.content = s'.content)
    (category : Category) {entry entry' : HistoryEntry α}
    (hentry : entry.content = entry'.content) :
    (s.record category entry).content = (s'.record category entry').content := by
  rw [content_eq_iff] at h ⊢
  obtain ⟨hcurrent, hhistory, horigin⟩ := h
  refine ⟨?_, ?_, ?_⟩
  · rw [current_record, current_record, hcurrent]
  · intro other
    rw [history_record, history_record]
    -- A change is pushed onto its own category, and the others stay.
    split
    · rw [Ring.entries_push, Ring.entries_push, List.map_take, List.map_take, List.map_cons,
        List.map_cons, hentry, hhistory]
    · exact hhistory other
  · rw [origin_record, origin_record, horigin]

end Content

/-! ## Updates -/

section Updates

variable {α : Type} [Mergeable α]

/-- The changes of several categories are remembered. -/
def Snapshot.recordAll (s : Snapshot α) (id : String) (current : α) (categories : List Category)
    (now : Instant) : Snapshot α :=
  categories.foldl
    (fun s category => s.record category ⟨id, now, Mergeable.project current category⟩) s

theorem Snapshot.origin_recordAll (s : Snapshot α) (id : String) (current : α)
    (categories : List Category) (now : Instant) :
    (s.recordAll id current categories now).origin = s.origin := by
  induction categories generalizing s with
  | nil => rfl
  | cons first categories ih => exact (ih _).trans (origin_record ..)

theorem Snapshot.content_recordAll {s s' : Snapshot α} (h : s.content = s'.content) (id : String)
    (current : α) (categories : List Category) (now now' : Instant) :
    (s.recordAll id current categories now).content
      = (s'.recordAll id current categories now').content := by
  induction categories generalizing s s' with
  | nil => exact h
  | cons category categories ih => exact ih (content_record h category rfl)

/-- What holds of the values of past changes and of those of the new ones holds of all. -/
theorem Snapshot.forall_entry_recordAll {P : α → Prop} {s : Snapshot α} {current : α} (id : String)
    (categories : List Category) (now : Instant)
    (hnew : ∀ category, P (Mergeable.project current category))
    (h : ∀ category, ∀ entry ∈ (s.history category).entries, P entry.values) :
    ∀ category, ∀ entry ∈ ((s.recordAll id current categories now).history category).entries,
      P entry.values := by
  induction categories generalizing s with
  | nil => exact h
  | cons first categories ih =>
    apply ih
    intro category entry hentry
    rw [history_record] at hentry
    split at hentry
    · -- An entry is the new one or one of those before.
      rcases List.mem_cons.mp (List.mem_of_mem_take hentry) with rfl | hentry
      · exact hnew first
      · exact h category entry hentry
    · exact h category entry hentry

/-- The snapshot after the update of a call at an instant. -/
def Call.onto (call : Call α) (s : Snapshot α) (now : Instant) : Snapshot α :=
  let merged := (s.merge call.id (call.kind.prepare call.update) call.kind.tracked now).1
  { merged with origin := call.origin.or merged.origin }

omit [Mergeable α] in
theorem Call.start_eq_reading {call : Call α} (hid : EntityId.Valid call.id)
    (hattempts : 0 < call.attempts) : call.start = .reading (call.attempts - 1) := by
  obtain ⟨more, hmore⟩ := Nat.exists_eq_add_of_lt hattempts
  rw [start, if_pos hid, hmore, Nat.zero_add]
  rfl

theorem Call.merged_eq (call : Call α) (text : Option Octets) (now : Instant) :
    call.merged text now = call.onto (stored text) now := rfl

/-- The values under the update of a call. -/
def Call.current (call : Call α) (s : Snapshot α) : α :=
  Overlay.overlay s.current (call.kind.prepare call.update)

/-- The categories that the update of a call changes. -/
def Call.changes (call : Call α) (s : Snapshot α) : List Category :=
  call.kind.tracked.filter (Snapshot.changed s.current (call.current s))

theorem Call.current_onto (call : Call α) (s : Snapshot α) (now : Instant) :
    (call.onto s now).current = call.current s := rfl

theorem Call.history_onto (call : Call α) (s : Snapshot α) (now : Instant) (category : Category) :
    (call.onto s now).history category
      = (s.recordAll call.id (call.current s) (call.changes s) now).history category := by
  cases category <;> rfl

theorem Call.origin_onto (call : Call α) (s : Snapshot α) (now : Instant) :
    (call.onto s now).origin = call.origin.or s.origin :=
  congrArg call.origin.or (s.origin_recordAll ..)

/-- The content of a snapshot after an update depends on nothing but the content before it. -/
theorem Call.content_onto (call : Call α) {s s' : Snapshot α} (h : s.content = s'.content)
    (now now' : Instant) : (call.onto s now).content = (call.onto s' now').content := by
  obtain ⟨hcurrent, -, horigin⟩ := Snapshot.content_eq_iff.mp h
  have hstate : call.current s = call.current s' := by rw [current, current, hcurrent]
  have hchanges : call.changes s = call.changes s' := by rw [changes, changes, hcurrent, hstate]
  -- Which categories change depends on the contents only, and so does what is recorded.
  have hrecorded := Snapshot.content_recordAll h call.id (call.current s) (call.changes s) now now'
  rw [Snapshot.content_eq_iff]
  refine ⟨?_, ?_, ?_⟩
  · rw [current_onto, current_onto, hstate]
  · intro category
    rw [history_onto, history_onto, ← hstate, ← hchanges]
    exact (Snapshot.content_eq_iff.mp hrecorded).2.1 category
  · rw [origin_onto, origin_onto, horigin]

/-- The snapshot with an update of an entity merged in that came from somewhere. -/
def Snapshot.updated (s : Snapshot α) (kind : EntityKind α) (id : String) (update : α)
    (origin : Origin) (now : Instant) : Snapshot α :=
  { (s.merge id (kind.prepare update) kind.tracked now).1 with origin := some origin }

theorem Call.onto_eq_updated (kind : EntityKind α) (id : String) (update : α) (origin : Origin)
    (attempts : Nat) (s : Snapshot α) (now : Instant) :
    (⟨kind, id, update, some origin, attempts⟩ : Call α).onto s now
      = s.updated kind id update origin now := rfl

/-- The snapshot after the updates of calls, one after the other. -/
def Snapshot.after (s : Snapshot α) (calls : List (Call α)) (now : Instant) : Snapshot α :=
  calls.foldl (fun s call => call.onto s now) s

theorem Snapshot.after_append (s : Snapshot α) (calls : List (Call α)) (call : Call α)
    (now : Instant) : s.after (calls ++ [call]) now = call.onto (s.after calls now) now :=
  List.foldl_append

end Updates

/-! ## Lasting -/

section Lasting

variable {α : Type} [Mergeable α] [Lasting α]

/-- The numbers of a call survive. -/
structure Call.Survives (call : Call α) : Prop where
  /-- The numbers of the update survive. -/
  update : Survive (call.kind.prepare call.update)
  /-- The numbers of the origin survive. -/
  origin : ∀ n ∈ optionNumbers call.origin, n.Survives

theorem Call.survives_of_eq_nil {call : Call α}
    (hupdate : Lossless.numbers (call.kind.prepare call.update) = [])
    (horigin : optionNumbers call.origin = []) : call.Survives where
  update n hn := by
    rw [hupdate] at hn
    cases hn
  origin n hn := by
    rw [horigin] at hn
    cases hn

/-- A snapshot lasts under the update of a call whose numbers survive. -/
theorem Call.lasts_onto {call : Call α} (hcall : call.Survives) {s : Snapshot α} (h : Lasts s)
    (now : Instant) : Lasts (call.onto s now) := by
  obtain ⟨hcurrent, hhistory, horigin⟩ := Snapshot.lasts_iff.mp h
  have hnew : Lasts (call.current s) := Lasting.lasts_overlay hcurrent hcall.update
  rw [Snapshot.lasts_iff]
  refine ⟨hnew, ?_, ?_⟩
  · intro category
    rw [history_onto]
    exact Snapshot.forall_entry_recordAll call.id (call.changes s) now
      (fun changed => Lasting.lasts_project changed hnew) hhistory category
  · intro n hn
    rw [origin_onto] at hn
    -- The origin is the one of the call when it has one.
    cases hgiven : call.origin with
    | none =>
      rw [hgiven] at hn
      exact horigin n hn
    | some origin =>
      rw [hgiven] at hn
      exact hcall.origin n (hgiven ▸ hn)

/-- Everything of what has been read is written. -/
theorem Call.complete_stored (text : Option Octets) :
    Lossless.Complete (stored text : Snapshot α) := by
  rw [stored]
  cases hread : text.bind (Snapshot.ofOctets? (α := α)) with
  | none => exact Snapshot.lasts_empty.complete
  | some s =>
    obtain ⟨octets, -, hread⟩ := Option.bind_eq_some_iff.mp hread
    exact Snapshot.complete_of_ofOctets? hread

/-- What has been read lasts when its numbers survive. -/
theorem Call.lasts_stored {text : Option Octets} (h : Survive (stored text : Snapshot α)) :
    Lasts (stored text : Snapshot α) :=
  ⟨h, complete_stored text⟩

end Lasting

end FieldTelemetry.Store
