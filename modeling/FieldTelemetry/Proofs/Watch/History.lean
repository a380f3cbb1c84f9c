import FieldTelemetry.Proofs.Watch.Sightings
import Mathlib.Data.List.Chain

/-!
# What a tracker knows after events

Sightings, scans and searches for the unseen come in any order, with instants and clocks that are
late, repeated or out of order. What a tracker knows of a member is the latest of its sightings,
whether one of them was recent when it brought news, and whether the last alert about it was that it
has not been seen. So the alerts about a member alternate, and a search reports exactly those that
are overdue.

## Main definitions

* `Event`, `Sighting`: what a tracker is told
* `Tracker.run`: a tracker after events, with all alerts
* `IsLatest`, `Fresh`: the latest sighting of a member, and one that was recent when it brought news
* `Alternate`: reports that alternate
* `Follows`: a tracker knows what sightings and alerts have told
* `Exact`: the alerts and the next search are what the sightings give rise to

## Main results

* `Follows.observe`, `Follows.refresh`, `Follows.sweep`: events keep a tracker so
* `Tracker.exact_run`: the alerts of a new tracker after any events
-/

namespace FieldTelemetry.Watch

open Time (Instant Span)

/-! ## Events -/

/-- What a tracker is told. -/
inductive Event
  /-- A member was seen. -/
  | observe (id : String) (seen now : Instant)
  /-- Members were seen, as a scan of what is stored tells. -/
  | refresh (sightings : List (String × Instant)) (now : Instant)
  /-- The unseen are searched for. -/
  | sweep (now : Instant)

/-- The alerts of an event, and the tracker after it. -/
def Tracker.feed (tracker : Tracker) : Event → List Alert × Tracker
  | .observe id seen now =>
    ((tracker.observe id seen now).1.toList, (tracker.observe id seen now).2)
  | .refresh sightings now => tracker.refresh sightings now
  | .sweep now => tracker.sweep now

/-- All alerts of several events, and the tracker after them. -/
def Tracker.run (tracker : Tracker) (events : List Event) : List Alert × Tracker :=
  events.foldl (fun state event => (state.1 ++ (state.2.feed event).1, (state.2.feed event).2))
    ([], tracker)

theorem Tracker.run_concat (tracker : Tracker) (events : List Event) (event : Event) :
    tracker.run (events ++ [event])
      = ((tracker.run events).1 ++ ((tracker.run events).2.feed event).1,
        ((tracker.run events).2.feed event).2) := by
  rw [run, List.foldl_append]
  rfl

/-- A sighting of a member, and when it became known. -/
structure Sighting where
  /-- The member. -/
  id : String
  /-- When it was seen. -/
  seen : Instant
  /-- When that became known. -/
  now : Instant

/-- The sightings of a scan. -/
def scanned (sightings : List (String × Instant)) (now : Instant) : List Sighting :=
  sightings.map fun (id, seen) => ⟨id, seen, now⟩

/-- The sightings that an event tells of. -/
def Event.sightings : Event → List Sighting
  | .observe id seen now => [⟨id, seen, now⟩]
  | .refresh sightings now => scanned sightings now
  | .sweep _ => []

/-- The sightings of a member, in the order in which they became known. -/
def sightingsOf (id : String) (sightings : List Sighting) : List Sighting :=
  sightings.filter (·.id = id)

theorem sightingsOf_append (id : String) (sightings sightings' : List Sighting) :
    sightingsOf id (sightings ++ sightings')
      = sightingsOf id sightings ++ sightingsOf id sightings' :=
  List.filter_append ..

/-! ## Sightings of one member -/

/-- The latest instant of sightings. -/
def IsLatest (sightings : List Sighting) (last : Instant) : Prop :=
  IsGreatest {seen | ∃ s ∈ sightings, s.seen = seen} last

/-- The sighting was less than a threshold old when it became known. -/
def Sighting.IsRecent (threshold : Span) (s : Sighting) : Prop := s.now.since s.seen < threshold

/-- A sighting was recent when it became known, and later than all that had become known before. -/
def Fresh (threshold : Span) (sightings : List Sighting) : Prop :=
  ∃ before s after, sightings = before ++ s :: after ∧ (∀ e ∈ before, e.seen < s.seen)
    ∧ s.IsRecent threshold

section Sightings

variable {threshold : Span} {sightings : List Sighting} {s : Sighting} {last last' : Instant}

theorem IsLatest.unique (h : IsLatest sightings last) (h' : IsLatest sightings last') :
    last = last' :=
  Instant.le_antisymm (h'.2 h.1) (h.2 h'.1)

theorem IsLatest.le (h : IsLatest sightings last) (hs : s ∈ sightings) : s.seen ≤ last :=
  h.2 ⟨s, hs, rfl⟩

theorem isLatest_singleton (s : Sighting) : IsLatest [s] s.seen := by
  refine ⟨⟨s, List.mem_singleton_self s, rfl⟩, ?_⟩
  rintro seen ⟨e, he, rfl⟩
  rw [List.mem_singleton.mp he]
  exact Instant.le_refl _

theorem IsLatest.concat_late (h : IsLatest sightings last) (hlate : s.seen ≤ last) :
    IsLatest (sightings ++ [s]) last := by
  obtain ⟨e, he, hseen⟩ := h.1
  refine ⟨⟨e, List.mem_append_left _ he, hseen⟩, ?_⟩
  rintro seen ⟨e', he', rfl⟩
  rcases List.mem_append.mp he' with he' | he'
  · exact h.le he'
  · rw [List.mem_singleton.mp he']
    exact hlate

theorem IsLatest.lt (h : IsLatest sightings last) (hnew : last < s.seen) :
    ∀ e ∈ sightings, e.seen < s.seen := by
  intro e he
  rw [← Instant.not_le] at hnew ⊢
  exact fun hle => hnew (Instant.le_trans hle (h.le he))

theorem IsLatest.concat_new (h : IsLatest sightings last) (hnew : last < s.seen) :
    IsLatest (sightings ++ [s]) s.seen := by
  refine ⟨⟨s, List.mem_append_right _ (List.mem_singleton_self s), rfl⟩, ?_⟩
  rintro seen ⟨e, he, rfl⟩
  rcases List.mem_append.mp he with he | he
  · exact Instant.le_of_not_le (Instant.not_le.mpr (h.lt hnew e he))
  · rw [List.mem_singleton.mp he]
    exact Instant.le_refl _

theorem not_fresh_nil : ¬ Fresh threshold [] := by
  rintro ⟨before, s, after, h, -⟩
  simp at h

theorem fresh_concat_iff : Fresh threshold (sightings ++ [s])
    ↔ Fresh threshold sightings
      ∨ (∀ e ∈ sightings, e.seen < s.seen) ∧ s.IsRecent threshold := by
  constructor
  · rintro ⟨before, first, after, h, hnew, hrecent⟩
    -- The sighting is the last one of all, or it is among those before.
    rcases List.eq_nil_or_concat' after with rfl | ⟨after, last, rfl⟩
    · obtain ⟨rfl, rfl⟩ := List.append_inj' h rfl |>.imp_right List.singleton_inj.mp
      exact .inr ⟨hnew, hrecent⟩
    · rw [← List.cons_append, ← List.append_assoc] at h
      obtain ⟨rfl, -⟩ := List.append_inj' h rfl
      exact .inl ⟨before, first, after, rfl, hnew, hrecent⟩
  · rintro (⟨before, first, after, rfl, hnew, hrecent⟩ | ⟨hnew, hrecent⟩)
    · refine ⟨before, first, after ++ [s], ?_, hnew, hrecent⟩
      rw [List.append_assoc, List.cons_append]
    · exact ⟨sightings, s, [], rfl, hnew, hrecent⟩

theorem Fresh.exists_isRecent (h : Fresh threshold sightings) :
    ∃ s ∈ sightings, s.IsRecent threshold := by
  obtain ⟨before, s, after, rfl, -, hrecent⟩ := h
  exact ⟨s, List.mem_append_right _ List.mem_cons_self, hrecent⟩

end Sightings

/-! ## Alternation -/

/-- What is said about a member alternates, and the first is that it has not been seen. -/
structure Alternate (changes : List Change) : Prop where
  /-- The first is that it has not been seen. -/
  first : ∀ change ∈ changes.head?, change = .unseen
  /-- Neighbours are different. -/
  chain : changes.IsChain (· ≠ ·)

/-- The absence that was reported last has not ended. -/
def Unanswered (changes : List Change) : Prop := changes.getLast? = some .unseen

section Alternation

variable {changes : List Change}

theorem alternate_nil : Alternate [] := ⟨fun _ h => absurd h (by simp), .nil⟩

theorem Alternate.concat {change : Change} (h : Alternate changes)
    (hfirst : changes = [] → change = .unseen) (hother : changes.getLast? ≠ some change) :
    Alternate (changes ++ [change]) where
  first other hother := by
    cases changes with
    | nil =>
      cases hother
      exact hfirst rfl
    | cons first changes => exact h.first other hother
  chain := by
    rw [List.isChain_append]
    refine ⟨h.chain, .singleton _, ?_⟩
    rintro last hlast _ ⟨⟩ rfl
    exact hother hlast

theorem Alternate.unseen (h : Alternate changes) (hanswered : ¬ Unanswered changes) :
    Alternate (changes ++ [.unseen]) :=
  h.concat (fun _ => rfl) hanswered

theorem Alternate.returned (h : Alternate changes) (hunanswered : Unanswered changes) :
    Alternate (changes ++ [.returned]) := by
  rw [Unanswered] at hunanswered
  refine h.concat (fun hnil => ?_) ?_
  · rw [hnil] at hunanswered
    cases hunanswered
  · rw [hunanswered]
    decide

theorem unanswered_concat {change : Change} :
    Unanswered (changes ++ [change]) ↔ change = .unseen := by
  rw [Unanswered, List.getLast?_concat, Option.some.injEq]

end Alternation

/-! ## What is known of one member -/

/-- What is known of a member sums up its sightings and the alerts about it. -/
structure Sums (threshold : Span) (sightings : List Sighting) (changes : List Change)
    (presence : Presence) : Prop where
  /-- The latest sighting is known. -/
  lastSeen : IsLatest sightings presence.lastSeen
  /-- It is known whether a sighting was recent when it brought news. -/
  everRecent : presence.everRecent = true ↔ Fresh threshold sightings
  /-- It is known whether the present absence was reported. -/
  reported : presence.reported = true ↔ Unanswered changes
  /-- Only members are reported that had been seen in time. -/
  missed : changes ≠ [] → presence.everRecent = true

namespace Sums

variable {threshold : Span} {sightings : List Sighting} {changes : List Change}
  {presence : Presence} {s : Sighting} {recent : Bool}

theorem first (hrecent : recent = true ↔ s.IsRecent threshold) :
    Sums threshold [s] [] ⟨s.seen, recent, false⟩ where
  lastSeen := isLatest_singleton s
  everRecent := by
    rw [← List.nil_append [s], fresh_concat_iff, hrecent]
    simp [not_fresh_nil]
  reported := by simp [Unanswered]
  missed h := absurd rfl h

/-- A sighting that is not later than the latest one tells nothing. -/
theorem late (h : Sums threshold sightings changes presence) (hlate : s.seen ≤ presence.lastSeen) :
    Sums threshold (sightings ++ [s]) changes presence where
  lastSeen := h.lastSeen.concat_late hlate
  everRecent := by
    rw [h.everRecent, fresh_concat_iff]
    refine ⟨.inl, ?_⟩
    rintro (hfresh | ⟨hnew, -⟩)
    · exact hfresh
    · obtain ⟨e, he, hseen⟩ := h.lastSeen.1
      exact absurd (hseen ▸ hlate) (Instant.not_le.mpr (hnew e he))
  reported := h.reported
  missed := h.missed

/-- A later sighting ends the absence. -/
theorem news (h : Sums threshold sightings changes presence) (hnew : presence.lastSeen < s.seen)
    (hrecent : recent = true ↔ s.IsRecent threshold) :
    Sums threshold (sightings ++ [s])
      (changes ++ if presence.reported then [.returned] else [])
      ⟨s.seen, presence.everRecent || recent, false⟩ where
  lastSeen := h.lastSeen.concat_new hnew
  everRecent := by
    rw [Bool.or_eq_true, h.everRecent, hrecent, fresh_concat_iff]
    exact or_congr_right (iff_and_self.mpr fun _ => h.lastSeen.lt hnew)
  reported := by
    split
    · simp [unanswered_concat]
    · rename_i hreported
      simpa [h.reported] using hreported
  missed hchanges := by
    have hmissed : presence.everRecent = true := by
      split at hchanges
      · rename_i hreported
        -- What was reported had been seen in time.
        apply h.missed
        rintro rfl
        cases h.reported.mp hreported
      · exact h.missed (by simpa using hchanges)
    exact Bool.or_eq_true_iff.mpr (.inl hmissed)

/-- A search reports the absence if it is overdue. -/
theorem search (h : Sums threshold sightings changes presence) {overdue : Bool}
    (hoverdue : overdue = true → presence.everRecent = true) :
    Sums threshold sightings (changes ++ if overdue then [.unseen] else [])
      (if overdue then { presence with reported := true } else presence) := by
  cases overdue with
  | false =>
    rw [if_neg Bool.false_ne_true, if_neg Bool.false_ne_true, List.append_nil]
    exact h
  | true => exact ⟨h.lastSeen, h.everRecent, by simp [unanswered_concat], fun _ => hoverdue rfl⟩

end Sums

/-- What is known of a member, if anything is. -/
def Known (threshold : Span) (sightings : List Sighting) (changes : List Change) :
    Option Presence → Prop
  | none => sightings = [] ∧ changes = []
  | some presence => Sums threshold sightings changes presence

/-! ## What is known of all -/

/-- A tracker knows of every member what its sightings and the alerts about it tell. -/
structure Follows (label : String) (threshold : Span) (sightings : List Sighting)
    (alerts : List Alert) (tracker : Tracker) : Prop where
  /-- The population. -/
  label_eq : tracker.label = label
  /-- How long a member may stay away. -/
  threshold_eq : tracker.threshold = threshold
  /-- What is known of a member. -/
  known : ∀ id, Known threshold (sightingsOf id sightings) (changesOf id alerts)
    (tracker.presence? id)
  /-- Alerts about a member alternate. -/
  alternate : ∀ id, Alternate (changesOf id alerts)

namespace Follows

variable {label : String} {threshold : Span} {sightings : List Sighting} {alerts : List Alert}
  {tracker : Tracker} {id : String} {presence : Presence}

theorem start (label : String) (threshold : Span) :
    Follows label threshold [] [] (.new label threshold) where
  label_eq := rfl
  threshold_eq := rfl
  known _ := ⟨rfl, rfl⟩
  alternate _ := alternate_nil

theorem sums (h : Follows label threshold sightings alerts tracker)
    (hpresence : tracker.presence? id = some presence) :
    Sums threshold (sightingsOf id sightings) (changesOf id alerts) presence := by
  have hknown := h.known id
  rwa [hpresence] at hknown

theorem recent_iff (h : Follows label threshold sightings alerts tracker) (id : String)
    (seen now : Instant) : tracker.recent seen now = true
      ↔ (⟨id, seen, now⟩ : Sighting).IsRecent threshold := by
  rw [Tracker.recent, h.threshold_eq, decide_eq_true_iff]
  rfl

/-- What a sighting of a member tells of it. -/
theorem observe_self (h : Follows label threshold sightings alerts tracker) (id : String)
    (seen now : Instant) :
    Known threshold (sightingsOf id sightings ++ [⟨id, seen, now⟩])
        (changesOf id alerts ++ changesOf id (tracker.observe id seen now).1.toList)
        ((tracker.observe id seen now).2.presence? id)
      ∧ Alternate (changesOf id alerts
        ++ changesOf id (tracker.observe id seen now).1.toList) := by
  have hknown := h.known id
  obtain ⟨hpresence, heq⟩ | ⟨presence, hpresence, hlate, heq⟩ | ⟨presence, hpresence, hnew, heq⟩ :=
    tracker.observe_cases id seen now
  · rw [hpresence] at hknown
    rw [heq, hknown.1, hknown.2, Tracker.presence?_know, if_pos rfl]
    exact ⟨.first (h.recent_iff id seen now), alternate_nil⟩
  · rw [hpresence] at hknown
    rw [heq, Option.toList_none, hpresence]
    simp only [changesOf, List.filter_nil, List.map_nil, List.append_nil]
    exact ⟨hknown.late hlate, h.alternate id⟩
  · rw [hpresence] at hknown
    have hchanges : changesOf id (tracker.observe id seen now).1.toList
        = if presence.reported then [.returned] else [] := by
      rw [heq]
      cases presence.reported with
      | false => rfl
      | true => exact changesOf_singleton (tracker.backAlert id seen presence.lastSeen)
    rw [hchanges, heq, Tracker.presence?_know, if_pos rfl]
    refine ⟨hknown.news hnew (h.recent_iff id seen now), ?_⟩
    split
    · rename_i hreported
      exact (h.alternate id).returned (hknown.reported.mp hreported)
    · rw [List.append_nil]
      exact h.alternate id

theorem observe (h : Follows label threshold sightings alerts tracker) (id : String)
    (seen now : Instant) : Follows label threshold (sightings ++ [⟨id, seen, now⟩])
      (alerts ++ (tracker.observe id seen now).1.toList) (tracker.observe id seen now).2 := by
  have hframe := tracker.observe_frame id seen now
  obtain ⟨hknown, halternate⟩ := h.observe_self id seen now
  have hmine : sightingsOf id [⟨id, seen, now⟩] = [⟨id, seen, now⟩] :=
    List.filter_cons_of_pos (by simp)
  refine ⟨hframe.1.trans h.label_eq, hframe.2.trans h.threshold_eq, ?_, ?_⟩
  · intro other
    rw [sightingsOf_append, changesOf_append]
    by_cases heq : other = id
    · rw [heq, hmine]
      exact hknown
    · have hnone : sightingsOf other [⟨id, seen, now⟩] = [] :=
        List.filter_cons_of_neg (by simpa using Ne.symm heq)
      rw [hnone, Tracker.changesOf_observe_of_ne heq, List.append_nil, List.append_nil,
        Tracker.presence?_observe_of_ne heq]
      exact h.known other
  · intro other
    rw [changesOf_append]
    by_cases heq : other = id
    · rw [heq]
      exact halternate
    · rw [Tracker.changesOf_observe_of_ne heq, List.append_nil]
      exact h.alternate other

theorem refresh (h : Follows label threshold sightings alerts tracker)
    (seen : List (String × Instant)) (now : Instant) :
    Follows label threshold (sightings ++ scanned seen now)
      (alerts ++ (tracker.refresh seen now).1) (tracker.refresh seen now).2 := by
  induction seen generalizing sightings alerts tracker with
  | nil =>
    rw [scanned, List.map_nil, List.append_nil, Tracker.refresh, List.append_nil]
    exact h
  | cons first rest ih =>
    obtain ⟨id, seen⟩ := first
    have hrest := ih (h.observe id seen now)
    rw [List.append_assoc, List.append_assoc] at hrest
    exact hrest

/-- A member is overdue when it was seen in time once, its absence has not been reported, and the
latest sighting is as old as the threshold. -/
theorem overdue_iff (h : Follows label threshold sightings alerts tracker)
    (hpresence : tracker.presence? id = some presence) (now : Instant) :
    tracker.overdue presence now = true ↔ ¬ Unanswered (changesOf id alerts)
      ∧ Fresh threshold (sightingsOf id sightings) ∧ threshold ≤ now.since presence.lastSeen := by
  have hsums := h.sums hpresence
  rw [Tracker.overdue, h.threshold_eq, Bool.and_eq_true, Bool.and_eq_true, decide_eq_true_iff,
    hsums.everRecent, Bool.not_eq_true', ← Bool.not_eq_true, hsums.reported, and_assoc]

theorem sweep (h : Follows label threshold sightings alerts tracker) (now : Instant) :
    Follows label threshold sightings (alerts ++ (tracker.sweep now).1) (tracker.sweep now).2 := by
  refine ⟨h.label_eq, h.threshold_eq, ?_, ?_⟩
  · intro id
    have hknown := h.known id
    rw [changesOf_append, Tracker.changesOf_sweep, Tracker.presence?_sweep]
    cases hpresence : tracker.presence? id with
    | none =>
      rw [hpresence] at hknown
      rw [hknown.2]
      exact ⟨hknown.1, rfl⟩
    | some presence =>
      have hsums := h.sums hpresence
      apply hsums.search
      intro hoverdue
      exact hsums.everRecent.mpr ((h.overdue_iff hpresence now).mp hoverdue).2.1
  · intro id
    rw [changesOf_append, Tracker.changesOf_sweep]
    split
    · rename_i hany
      obtain ⟨presence, hpresence, hoverdue⟩ := Option.any_eq_true .. |>.mp hany
      exact (h.alternate id).unseen ((h.overdue_iff hpresence now).mp hoverdue).1
    · rw [List.append_nil]
      exact h.alternate id

theorem feed (h : Follows label threshold sightings alerts tracker) (event : Event) :
    Follows label threshold (sightings ++ event.sightings) (alerts ++ (tracker.feed event).1)
      (tracker.feed event).2 := by
  cases event with
  | observe id seen now => exact h.observe id seen now
  | refresh seen now => exact h.refresh seen now
  | sweep now =>
    rw [Event.sightings, List.append_nil]
    exact h.sweep now

/-- A new tracker knows after any events what they have told. -/
theorem run (label : String) (threshold : Span) (events : List Event) :
    Follows label threshold (events.flatMap Event.sightings)
      ((Tracker.new label threshold).run events).1
      ((Tracker.new label threshold).run events).2 := by
  induction events using List.reverseRecOn with
  | nil => exact start label threshold
  | append_singleton events event ih =>
    rw [Tracker.run_concat, List.flatMap_append, List.flatMap_singleton]
    exact ih.feed event

end Follows

/-! ## Alerts -/

/-- The alerts so far, and those of a search that comes next, are what sightings give rise to. -/
structure Exact (label : String) (threshold : Span) (sightings : List Sighting)
    (alerts : List Alert) (tracker : Tracker) : Prop where
  /-- The alerts about a member alternate, and the first is that it has not been seen. -/
  alternate : ∀ id, Alternate (changesOf id alerts)
  /-- What is known of a member is the latest of its sightings. -/
  lastSeen : ∀ id last, (tracker.presence? id).map Presence.lastSeen = some last
    ↔ IsLatest (sightingsOf id sightings) last
  /-- A search reports those whose absence has not been reported, who were once seen in time, and
  whose latest sighting is as old as the threshold, and no others. -/
  sweep : ∀ now alert, alert ∈ (tracker.sweep now).1
    ↔ ∃ last, IsLatest (sightingsOf alert.id sightings) last
      ∧ ¬ Unanswered (changesOf alert.id alerts) ∧ Fresh threshold (sightingsOf alert.id sightings)
      ∧ threshold ≤ now.since last ∧ alert = ⟨.unseen, label, alert.id, now.since last⟩
  /-- They come in the order of their ids, and once each. -/
  sorted : ∀ now, ((tracker.sweep now).1.map Alert.id).Pairwise (· < ·)
  /-- There is no alert about a member that was never seen in time. -/
  quiet : ∀ id, (∀ s ∈ sightingsOf id sightings, ¬ s.IsRecent threshold) →
    ∀ alert ∈ alerts, alert.id ≠ id

theorem Follows.lastSeen_iff {label : String} {threshold : Span} {sightings : List Sighting}
    {alerts : List Alert} {tracker : Tracker}
    (h : Follows label threshold sightings alerts tracker) (id : String) (last : Instant) :
    (tracker.presence? id).map Presence.lastSeen = some last
      ↔ IsLatest (sightingsOf id sightings) last := by
  have hknown := h.known id
  cases hpresence : tracker.presence? id with
  | none =>
    rw [hpresence] at hknown
    rw [hknown.1]
    simp [IsLatest, IsGreatest]
  | some presence =>
    have hsums := h.sums hpresence
    rw [Option.map_some, Option.some.injEq]
    constructor
    · rintro rfl
      exact hsums.lastSeen
    · exact hsums.lastSeen.unique

/-- After any sightings, scans and searches, the alerts of a new tracker are exact. -/
theorem Tracker.exact_run (label : String) (threshold : Span) (events : List Event) :
    Exact label threshold (events.flatMap Event.sightings)
      ((new label threshold).run events).1 ((new label threshold).run events).2 := by
  have hfollows := Follows.run label threshold events
  generalize events.flatMap Event.sightings = sightings at hfollows ⊢
  generalize (new label threshold).run events = state at hfollows ⊢
  obtain ⟨alerts, tracker⟩ := state
  refine ⟨hfollows.alternate, hfollows.lastSeen_iff, ?_, tracker.pairwise_sweep, ?_⟩
  · intro now alert
    rw [mem_sweep_iff]
    constructor
    · rintro ⟨presence, hpresence, hoverdue, halert⟩
      obtain ⟨hanswered, hfresh, hold⟩ := (hfollows.overdue_iff hpresence now).mp hoverdue
      refine ⟨_, (hfollows.sums hpresence).lastSeen, hanswered, hfresh, hold, ?_⟩
      rw [awayAlert, hfollows.label_eq] at halert
      exact halert
    · rintro ⟨last, hlast, hanswered, hfresh, hold, halert⟩
      obtain ⟨presence, hpresence, rfl⟩ :=
        Option.map_eq_some_iff.mp ((hfollows.lastSeen_iff alert.id last).mpr hlast)
      refine ⟨presence, hpresence, ?_, ?_⟩
      · exact (hfollows.overdue_iff hpresence now).mpr ⟨hanswered, hfresh, hold⟩
      · rw [awayAlert, hfollows.label_eq]
        exact halert
  · intro id hnever
    rw [← changesOf_eq_nil_iff]
    by_contra hchanges
    have hknown := hfollows.known id
    cases hpresence : tracker.presence? id with
    | none =>
      rw [hpresence] at hknown
      exact hchanges hknown.2
    | some presence =>
      -- An alert about a member means that one of its sightings was recent.
      have hsums := hfollows.sums hpresence
      obtain ⟨s, hs, hrecent⟩ := (hsums.everRecent.mp (hsums.missed hchanges)).exists_isRecent
      exact hnever s hs hrecent

end FieldTelemetry.Watch
