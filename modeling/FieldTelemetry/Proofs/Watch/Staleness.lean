import FieldTelemetry.Proofs.Time.Calendar
import FieldTelemetry.Watch.Staleness

/-!
# What a tracker knows of sightings

A tracker knows of a member that it was heard at an instant or later when there was a sighting of it
at that instant or later, in whatever order the sightings became known.

## Main definitions

* `Tracker.HeardSince`: a member was heard at an instant or later

## Main results

* `Tracker.heardSince_observe`: what a sighting tells
-/

namespace FieldTelemetry.Watch.Tracker

open Time (Instant Span)

variable {tracker : Tracker} {id other : String} {seen now t : Instant}

/-- A tracker knows that a member was heard at an instant or later. -/
def HeardSince (tracker : Tracker) (id : String) (t : Instant) : Prop :=
  ∃ presence, tracker.presence? id = some presence ∧ t ≤ presence.lastSeen

theorem not_heardSince_new (label : String) (threshold : Span) :
    ¬ (new label threshold).HeardSince id t := by
  rintro ⟨_, ⟨⟩, -⟩

theorem heardSince_insert (presence : Presence) :
    HeardSince { tracker with members := tracker.members.insert id presence } other t
      ↔ if other = id then t ≤ presence.lastSeen else tracker.HeardSince other t := by
  rw [HeardSince, presence?, Table.get?_insert]
  split
  · simp
  · rfl

/-- A sighting tells that its member was heard then, and takes nothing back. -/
theorem heardSince_observe :
    (tracker.observe id seen now).2.HeardSince other t
      ↔ (other = id ∧ t ≤ seen) ∨ tracker.HeardSince other t := by
  rw [observe]
  cases hpresence : tracker.presence? id with
  | none =>
    dsimp only
    rw [heardSince_insert]
    split
    · rename_i hother
      subst hother
      simp [HeardSince, hpresence]
    · rename_i hother
      simp [hother]
  | some presence =>
    have hheard : tracker.HeardSince id t ↔ t ≤ presence.lastSeen := by
      simp [HeardSince, hpresence]
    dsimp only
    by_cases hlate : seen ≤ presence.lastSeen
    · -- A later sighting is known already.
      rw [if_pos hlate]
      refine ⟨.inr, ?_⟩
      rintro (⟨rfl, ht⟩ | h)
      · exact hheard.mpr (Instant.le_trans ht hlate)
      · exact h
    · rw [if_neg hlate, heardSince_insert]
      split
      · rename_i hother
        subst hother
        rw [hheard]
        refine ⟨fun ht => .inl ⟨rfl, ht⟩, ?_⟩
        rintro (⟨-, ht⟩ | ht)
        · exact ht
        · exact Instant.le_trans ht (Instant.le_of_not_le hlate)
      · rename_i hother
        simp [hother]

end FieldTelemetry.Watch.Tracker
