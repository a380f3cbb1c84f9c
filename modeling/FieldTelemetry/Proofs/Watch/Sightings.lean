import FieldTelemetry.Proofs.Text.Order
import FieldTelemetry.Proofs.Time.Calendar
import FieldTelemetry.Watch.Staleness
import Mathlib.Data.List.Induction
import Mathlib.Data.String.Basic
import Mathlib.Order.Bounds.Defs

/-!
# What a tracker does

A sighting, a scan and a search for the unseen change what a tracker knows of a member, and give
rise to alerts about it. What that is depends on nothing but what was known of the member before.

## Main definitions

* `changesOf`: the alerts about a member
* `Tracker.know`: a tracker with something else known of a member
* `Tracker.newer`: the first sighting of a member that is later than an instant
* `Tracker.backAlert?`: the alert of a scan about a member

## Main results

* `Tracker.observe_cases`: all that a sighting can do
* `Tracker.filter_refresh`: the alerts of a scan about a member
* `Tracker.mem_sweep_iff`, `Tracker.pairwise_sweep`: the alerts of a search
* `Tracker.changesOf_sweep`, `Tracker.presence?_sweep`: a search for the unseen, seen from one
  member
-/

namespace FieldTelemetry.Watch

open Time (Instant Span)

/-! ## Alerts about a member -/

/-- What alerts say about a member. -/
def changesOf (id : String) (alerts : List Alert) : List Change :=
  (alerts.filter (·.id = id)).map Alert.change

section ChangesOf

variable {id : String} {alerts : List Alert} {alert : Alert}

theorem changesOf_append (id : String) (alerts alerts' : List Alert) :
    changesOf id (alerts ++ alerts') = changesOf id alerts ++ changesOf id alerts' := by
  rw [changesOf, List.filter_append, List.map_append]
  rfl

theorem changesOf_eq_nil_iff : changesOf id alerts = [] ↔ ∀ alert ∈ alerts, alert.id ≠ id := by
  simp [changesOf]

theorem changesOf_singleton (alert : Alert) : changesOf alert.id [alert] = [alert.change] := by
  simp [changesOf]

/-- When no two alerts are about the same member, there is one about each. -/
theorem changesOf_of_mem (hnodup : (alerts.map Alert.id).Nodup) (h : alert ∈ alerts) :
    changesOf alert.id alerts = [alert.change] := by
  induction alerts with
  | nil => cases h
  | cons first alerts ih =>
    rw [List.map_cons, List.nodup_cons] at hnodup
    rw [← List.singleton_append, changesOf_append]
    rcases List.mem_cons.mp h with rfl | hrest
    · have hnone : changesOf alert.id alerts = [] := by
        rw [changesOf_eq_nil_iff]
        exact fun other hother heq => hnodup.1 (List.mem_map.mpr ⟨other, hother, heq⟩)
      rw [changesOf_singleton, hnone]
      rfl
    · have hother : first.id ≠ alert.id :=
        fun heq => hnodup.1 (heq ▸ List.mem_map_of_mem hrest)
      have hnone : changesOf alert.id [first] = [] := by
        rw [changesOf_eq_nil_iff]
        simpa using hother
      rw [hnone, ih hnodup.2 hrest]
      rfl

end ChangesOf

namespace Tracker

variable {tracker : Tracker} {id other : String} {seen now : Instant} {presence : Presence}

/-! ## Sightings -/

/-- The tracker with something else known of a member. -/
def know (tracker : Tracker) (id : String) (presence : Presence) : Tracker :=
  { tracker with members := tracker.members.insert id presence }

@[simp]
theorem presence?_know (tracker : Tracker) (id other : String) (presence : Presence) :
    (tracker.know id presence).presence? other
      = if other = id then some presence else tracker.presence? other :=
  Table.get?_insert ..

/-- The alert about a member that is back. -/
def backAlert (tracker : Tracker) (id : String) (seen last : Instant) : Alert :=
  ⟨.returned, tracker.label, id, seen.since last⟩

/-- All that a sighting can do. -/
theorem observe_cases (tracker : Tracker) (id : String) (seen now : Instant) :
    (tracker.presence? id = none ∧ tracker.observe id seen now
        = (none, tracker.know id ⟨seen, tracker.recent seen now, false⟩))
      ∨ (∃ presence, tracker.presence? id = some presence ∧ seen ≤ presence.lastSeen
        ∧ tracker.observe id seen now = (none, tracker))
      ∨ ∃ presence, tracker.presence? id = some presence ∧ presence.lastSeen < seen
        ∧ tracker.observe id seen now
          = (if presence.reported then some (tracker.backAlert id seen presence.lastSeen) else none,
            tracker.know id ⟨seen, presence.everRecent || tracker.recent seen now, false⟩) := by
  rw [observe]
  cases tracker.presence? id with
  | none => exact .inl ⟨rfl, rfl⟩
  | some presence =>
    dsimp only
    by_cases hlate : seen ≤ presence.lastSeen
    · rw [if_pos hlate]
      exact .inr (.inl ⟨presence, rfl, hlate, rfl⟩)
    · rw [if_neg hlate]
      exact .inr (.inr ⟨presence, rfl, Instant.not_le.mp hlate, rfl⟩)

theorem observe_frame (tracker : Tracker) (id : String) (seen now : Instant) :
    (tracker.observe id seen now).2.label = tracker.label
      ∧ (tracker.observe id seen now).2.threshold = tracker.threshold := by
  obtain ⟨-, h⟩ | ⟨_, -, -, h⟩ | ⟨_, -, -, h⟩ := tracker.observe_cases id seen now <;>
    rw [h] <;> exact ⟨rfl, rfl⟩

/-- A sighting of one member tells nothing about the others. -/
theorem presence?_observe_of_ne (h : other ≠ id) :
    (tracker.observe id seen now).2.presence? other = tracker.presence? other := by
  obtain ⟨-, heq⟩ | ⟨_, -, -, heq⟩ | ⟨_, -, -, heq⟩ := tracker.observe_cases id seen now
  · rw [heq, presence?_know, if_neg h]
  · rw [heq]
  · rw [heq, presence?_know, if_neg h]

theorem id_of_mem_observe {alert : Alert} (h : alert ∈ (tracker.observe id seen now).1) :
    alert.id = id := by
  obtain ⟨-, heq⟩ | ⟨_, -, -, heq⟩ | ⟨presence, -, -, heq⟩ := tracker.observe_cases id seen now
  · rw [heq] at h
    cases h
  · rw [heq] at h
    cases h
  · rw [heq] at h
    dsimp only at h
    split at h <;> cases h
    rfl

theorem changesOf_observe_of_ne (h : other ≠ id) :
    changesOf other (tracker.observe id seen now).1.toList = [] := by
  rw [changesOf_eq_nil_iff]
  intro alert halert heq
  exact h (heq.symm.trans (id_of_mem_observe (Option.mem_toList.mp halert)))

/-! ## Scans -/

/-- The first sighting of a member that is later than an instant. -/
def newer (id : String) (last : Instant) (sightings : List (String × Instant)) : Option Instant :=
  ((sightings.filter (·.1 = id)).map Prod.snd).find? (last < ·)

theorem newer_cons_of_ne {sightings : List (String × Instant)} {last : Instant} (h : id ≠ other) :
    newer other last ((id, seen) :: sightings) = newer other last sightings := by
  rw [newer, List.filter_cons_of_neg (by simpa using h)]
  rfl

theorem newer_cons_self {sightings : List (String × Instant)} {last : Instant} :
    newer id last ((id, seen) :: sightings)
      = if last < seen then some seen else newer id last sightings := by
  rw [newer, List.filter_cons_of_pos (by simp), List.map_cons, List.find?_cons]
  by_cases h : last < seen
  · simp [h]
  · simp [h, newer]

/-- The alert that a scan gives rise to about a member. -/
def backAlert? (tracker : Tracker) (id : String) (sightings : List (String × Instant)) :
    Option Alert :=
  (tracker.presence? id).bind fun presence =>
    if presence.reported then
      (newer id presence.lastSeen sightings).map (tracker.backAlert id · presence.lastSeen)
    else none

theorem backAlert?_of_not_reported {sightings : List (String × Instant)}
    (h : ∀ presence ∈ tracker.presence? id, presence.reported = false) :
    tracker.backAlert? id sightings = none := by
  rw [backAlert?, Option.bind_eq_none_iff]
  intro presence hpresence
  rw [h presence hpresence]
  rfl

/-- What a scan says about a member rests on the first sighting that is later than the latest one
known. -/
theorem filter_refresh (tracker : Tracker) (sightings : List (String × Instant)) (now : Instant)
    (id : String) : (tracker.refresh sightings now).1.filter (·.id = id)
      = (tracker.backAlert? id sightings).toList := by
  induction sightings generalizing tracker with
  | nil =>
    rw [backAlert?]
    cases tracker.presence? id with
    | none => rfl
    | some presence => simp [refresh, newer]
  | cons first rest ih =>
    obtain ⟨first, seen⟩ := first
    simp only [refresh, List.filter_append, ih]
    by_cases hid : first = id
    · subst hid
      obtain ⟨hnone, h⟩ | ⟨presence, hsome, hlate, h⟩ | ⟨presence, hsome, hnew, h⟩ :=
        tracker.observe_cases first seen now
      · -- A member that was not known has not been reported.
        rw [h, backAlert?_of_not_reported (by simp), backAlert?_of_not_reported (by simp [hnone])]
        rfl
      · have hskip : ¬ presence.lastSeen < seen := by rwa [← Instant.not_le, not_not]
        rw [h, backAlert?, backAlert?, hsome, Option.bind_some, Option.bind_some, newer_cons_self,
          if_neg hskip]
        rfl
      · -- After this sighting the absence counts as answered, so no other one is reported.
        rw [h, backAlert?_of_not_reported (by simp), backAlert?, hsome, Option.bind_some,
          newer_cons_self, if_pos hnew]
        cases presence.reported <;> simp [backAlert]
    · have hnone : (tracker.observe first seen now).1.toList.filter (·.id = id) = [] := by
        rw [List.filter_eq_nil_iff]
        intro alert halert
        have := id_of_mem_observe (Option.mem_toList.mp halert)
        simpa [this] using hid
      have hlabel := (tracker.observe_frame first seen now).1
      rw [hnone, backAlert?, backAlert?, presence?_observe_of_ne (Ne.symm hid)]
      simp only [newer_cons_of_ne hid, backAlert, hlabel, List.nil_append]

theorem mem_refresh_iff {sightings : List (String × Instant)} {alert : Alert} :
    alert ∈ (tracker.refresh sightings now).1
      ↔ tracker.backAlert? alert.id sightings = some alert := by
  rw [← Option.mem_toList, ← tracker.filter_refresh sightings now, List.mem_filter]
  simp

theorem changesOf_refresh (tracker : Tracker) (sightings : List (String × Instant))
    (now : Instant) (id : String) : changesOf id (tracker.refresh sightings now).1
      = (tracker.backAlert? id sightings).toList.map Alert.change := by
  rw [changesOf, filter_refresh]

/-! ## Searching for the unseen -/

/-- The alert about a member that has not been seen. -/
def awayAlert (tracker : Tracker) (id : String) (last now : Instant) : Alert :=
  ⟨.unseen, tracker.label, id, now.since last⟩

/-- The alerts of a search are those about the members that are overdue. -/
theorem mem_sweep_iff {alert : Alert} : alert ∈ (tracker.sweep now).1
    ↔ ∃ presence, tracker.presence? alert.id = some presence
      ∧ tracker.overdue presence now = true
      ∧ alert = tracker.awayAlert alert.id presence.lastSeen now := by
  simp only [sweep, overdueAlerts, List.mem_mergeSort, List.mem_map, List.mem_filter, Prod.exists]
  constructor
  · rintro ⟨id, presence, ⟨hentry, hoverdue⟩, rfl⟩
    exact ⟨presence, Table.mem_entries_iff.mp hentry, hoverdue, rfl⟩
  · rintro ⟨presence, hpresence, hoverdue, halert⟩
    exact ⟨alert.id, presence, ⟨Table.mem_entries_iff.mpr hpresence, hoverdue⟩, halert.symm⟩

/-- The alerts of a search are in the order of the ids, and there is one about each. -/
theorem pairwise_sweep (tracker : Tracker) (now : Instant) :
    ((tracker.sweep now).1.map Alert.id).Pairwise (· < ·) := by
  simp only [sweep, overdueAlerts]
  generalize hoverdue : tracker.members.entries.filter _ = overdue
  generalize halerts : overdue.map _ = alerts
  have hnodup : (alerts.map Alert.id).Nodup := by
    have hids : alerts.map Alert.id = overdue.map Prod.fst := by
      rw [← halerts, List.map_map]
      rfl
    rw [hids, ← hoverdue]
    exact tracker.members.nodup.sublist (List.filter_sublist.map _)
  exact Text.pairwise_lt_mergeSort Alert.id hnodup

/-- What is known of a member after a search. -/
theorem presence?_sweep (tracker : Tracker) (now : Instant) (id : String) :
    (tracker.sweep now).2.presence? id = (tracker.presence? id).map fun presence =>
      if tracker.overdue presence now then { presence with reported := true } else presence :=
  Table.get?_mapValues ..

/-- What a search says about a member. -/
theorem changesOf_sweep (tracker : Tracker) (now : Instant) (id : String) :
    changesOf id (tracker.sweep now).1
      = if (tracker.presence? id).any (tracker.overdue · now) then [.unseen] else [] := by
  split
  · rename_i hany
    obtain ⟨presence, hpresence, hoverdue⟩ := Option.any_eq_true .. |>.mp hany
    have hmem : tracker.awayAlert id presence.lastSeen now ∈ (tracker.sweep now).1 :=
      mem_sweep_iff.mpr ⟨presence, hpresence, hoverdue, rfl⟩
    have hnodup := (tracker.pairwise_sweep now).imp fun h => ne_of_lt h
    exact changesOf_of_mem hnodup hmem
  · rename_i hnone
    rw [changesOf_eq_nil_iff]
    rintro alert halert rfl
    obtain ⟨presence, hpresence, hoverdue, -⟩ := mem_sweep_iff.mp halert
    exact hnone (by rw [hpresence]; exact hoverdue)

end Tracker

end FieldTelemetry.Watch
