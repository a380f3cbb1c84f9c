import FieldTelemetry.Pipeline.Dispatch
import FieldTelemetry.Proofs.Watch.History

/-!
# Members that are back

A member whose absence was reported counts as back with the first sighting that is later than the
latest one known. How old that sighting is does not matter. So a member may be reported as back that
has not been seen for the threshold, and the search that follows a scan then reports it once more.

## Main definitions

* `Missing`: the absence of a member since its latest sighting was reported
* `sightingsIn`: the sightings that a backend lists
* `Returns`: what is said about members that are back

## Main results

* `Tracker.returns_run`: who is reported as back after any events, and who as back and as unseen
* `scanOnce_back_and_unseen`: a scan that reports a member as back and as unseen
-/

namespace FieldTelemetry.Watch

open Pipeline (scanOnce)
open Store (Backend EntityKind Mergeable)
open Time (Instant Span)

/-- The absence of a member since its latest sighting was reported, and has not ended. -/
def Missing (sightings : List Sighting) (alerts : List Alert) (id : String) (last : Instant) :
    Prop :=
  IsLatest (sightingsOf id sightings) last ∧ Unanswered (changesOf id alerts)

theorem Fresh.append {threshold : Span} {sightings : List Sighting}
    (h : Fresh threshold sightings) (later : List Sighting) :
    Fresh threshold (sightings ++ later) := by
  obtain ⟨before, s, after, rfl, hnew, hrecent⟩ := h
  refine ⟨before, s, after ++ later, ?_, hnew, hrecent⟩
  rw [List.append_assoc, List.cons_append]

theorem exists_newer_iff {id : String} {last now : Instant} {listed : List (String × Instant)} :
    (∃ seen, Tracker.newer id last listed = some seen)
      ↔ ∃ s ∈ sightingsOf id (scanned listed now), last < s.seen := by
  rw [← Option.isSome_iff_exists, Tracker.newer, List.find?_isSome]
  simp [sightingsOf, scanned]

namespace Follows

variable {label : String} {threshold : Span} {sightings : List Sighting} {alerts : List Alert}
  {tracker : Tracker} {id : String} {seen now last : Instant} {presence : Presence} {alert : Alert}

theorem missing_iff (h : Follows label threshold sightings alerts tracker) :
    Missing sightings alerts id last
      ↔ ∃ presence, tracker.presence? id = some presence ∧ presence.lastSeen = last
        ∧ presence.reported = true := by
  rw [Missing, ← h.lastSeen_iff, Option.map_eq_some_iff]
  constructor
  · rintro ⟨⟨presence, hpresence, hlast⟩, hunanswered⟩
    exact ⟨presence, hpresence, hlast, (h.sums hpresence).reported.mpr hunanswered⟩
  · rintro ⟨presence, hpresence, hlast, hreported⟩
    exact ⟨⟨presence, hpresence, hlast⟩, (h.sums hpresence).reported.mp hreported⟩

/-- A member that is missing was seen in time once. -/
theorem fresh_of_missing (h : Follows label threshold sightings alerts tracker)
    (hmissing : Missing sightings alerts id last) : Fresh threshold (sightingsOf id sightings) := by
  obtain ⟨presence, hpresence, -, -⟩ := h.missing_iff.mp hmissing
  have hsums := h.sums hpresence
  refine hsums.everRecent.mp (hsums.missed fun hnil => ?_)
  have hunanswered := hmissing.2
  rw [hnil] at hunanswered
  cases hunanswered

theorem mem_observe_iff (h : Follows label threshold sightings alerts tracker) :
    alert ∈ (tracker.observe id seen now).1 ↔ ∃ last, Missing sightings alerts id last
      ∧ last < seen ∧ alert = ⟨.returned, label, id, seen.since last⟩ := by
  simp only [h.missing_iff]
  obtain ⟨hpresence, heq⟩ | ⟨presence, hpresence, hlate, heq⟩ | ⟨presence, hpresence, hnew, heq⟩ :=
    tracker.observe_cases id seen now
  · simp [heq, hpresence]
  · rw [heq]
    refine ⟨fun hmem => absurd hmem (by simp), ?_⟩
    rintro ⟨_, ⟨presence', hpresence', rfl, -⟩, hnew, -⟩
    cases hpresence.symm.trans hpresence'
    exact absurd hlate (Instant.not_le.mpr hnew)
  · rw [heq, Tracker.backAlert, h.label_eq]
    constructor
    · intro halert
      cases hreported : presence.reported with
      | false => simp [hreported] at halert
      | true =>
        refine ⟨_, ⟨presence, hpresence, rfl, hreported⟩, hnew, ?_⟩
        simpa [hreported, eq_comm] using halert
    · rintro ⟨_, ⟨presence', hpresence', rfl, hreported⟩, -, rfl⟩
      cases hpresence.symm.trans hpresence'
      simp [hreported]

/-- A scan reports those as back that are missing and have a later sighting. -/
theorem mem_refresh_iff (h : Follows label threshold sightings alerts tracker)
    {listed : List (String × Instant)} :
    alert ∈ (tracker.refresh listed now).1 ↔ ∃ last seen, Missing sightings alerts alert.id last
      ∧ Tracker.newer alert.id last listed = some seen
      ∧ alert = ⟨.returned, label, alert.id, seen.since last⟩ := by
  rw [Tracker.mem_refresh_iff, Tracker.backAlert?, Option.bind_eq_some_iff]
  simp only [h.missing_iff]
  constructor
  · rintro ⟨presence, hpresence, halert⟩
    split at halert
    · rename_i hreported
      obtain ⟨seen, hseen, halert⟩ := Option.map_eq_some_iff.mp halert
      refine ⟨_, seen, ⟨presence, hpresence, rfl, hreported⟩, hseen, ?_⟩
      rw [← h.label_eq]
      exact halert.symm
    · cases halert
  · rintro ⟨_, seen, ⟨presence, hpresence, rfl, hreported⟩, hseen, halert⟩
    refine ⟨presence, hpresence, ?_⟩
    rw [if_pos hreported, hseen, Option.map_some, Tracker.backAlert, h.label_eq]
    exact congrArg some halert.symm

end Follows

/-! ## Scans with a search -/

section Scans

variable {α σ : Type} [Mergeable α] [Backend σ]

/-- The sightings that a backend lists. -/
def sightingsIn (kind : EntityKind α) (backend : σ) : List (String × Instant) :=
  match (Store.scan kind backend).1 with
  | .ok listings => Pipeline.sightings listings
  | .error _ => []

/-- The alerts of a scan are those of the listed sightings and those of the search after them. -/
theorem mem_scanOnce_iff {kind : EntityKind α} {tracker : Tracker} {now : Instant} {backend : σ}
    {alert : Alert} : alert ∈ (scanOnce kind tracker now backend).1
      ↔ alert ∈ (tracker.refresh (sightingsIn kind backend) now).1
        ∨ alert ∈ ((tracker.refresh (sightingsIn kind backend) now).2.sweep now).1 :=
  List.mem_append

end Scans

/-- Some alert reports a change of a member. -/
def Reports (alerts : List Alert) (change : Change) (id : String) : Prop :=
  change ∈ changesOf id alerts

theorem reports_iff {alerts : List Alert} {change : Change} {id : String} :
    Reports alerts change id ↔ ∃ alert ∈ alerts, alert.id = id ∧ alert.change = change := by
  simp [Reports, changesOf, and_assoc]

/-- Who is reported as back by a sighting, a listing and a scan. -/
structure Returns (label : String) (threshold : Span) (sightings : List Sighting)
    (alerts : List Alert) (tracker : Tracker) : Prop where
  /-- A member is back when it is missing and the sighting is later than the latest one. -/
  observe : ∀ id seen now alert, alert ∈ (tracker.observe id seen now).1
    ↔ ∃ last, Missing sightings alerts id last ∧ last < seen
      ∧ alert = ⟨.returned, label, id, seen.since last⟩
  /-- Of several sightings the first one that is later counts. -/
  refresh : ∀ listed now alert, alert ∈ (tracker.refresh listed now).1
    ↔ ∃ last seen, Missing sightings alerts alert.id last
      ∧ Tracker.newer alert.id last listed = some seen
      ∧ alert = ⟨.returned, label, alert.id, seen.since last⟩
  /-- A scan reports those as back that its listing shows to be back. -/
  scan : ∀ {α σ : Type} [Mergeable α] [Backend σ] (kind : EntityKind α) (now : Instant)
    (backend : σ) (alert : Alert),
    alert ∈ (scanOnce kind tracker now backend).1 ∧ alert.change = .returned
      ↔ alert ∈ (tracker.refresh (sightingsIn kind backend) now).1
  /-- It reports a member as back and as unseen when the latest sighting that it lists is later than
  the latest one known and as old as the threshold. -/
  both : ∀ {α σ : Type} [Mergeable α] [Backend σ] (kind : EntityKind α) (now : Instant)
    (backend : σ) (id : String),
    Reports (scanOnce kind tracker now backend).1 .returned id
        ∧ Reports (scanOnce kind tracker now backend).1 .unseen id
      ↔ ∃ last latest, Missing sightings alerts id last ∧ last < latest
        ∧ IsLatest (sightingsOf id (sightings ++ scanned (sightingsIn kind backend) now)) latest
        ∧ threshold ≤ now.since latest

namespace Follows

variable {label : String} {threshold : Span} {sightings : List Sighting} {alerts : List Alert}
  {tracker : Tracker}

section

variable {α σ : Type} [Mergeable α] [Backend σ] {kind : EntityKind α} {now : Instant} {backend : σ}
  {alert : Alert} {id : String}

theorem mem_scanOnce_returned_iff (h : Follows label threshold sightings alerts tracker) :
    alert ∈ (scanOnce kind tracker now backend).1 ∧ alert.change = .returned
      ↔ alert ∈ (tracker.refresh (sightingsIn kind backend) now).1 := by
  rw [mem_scanOnce_iff]
  constructor
  · rintro ⟨hback | haway, hchange⟩
    · exact hback
    · obtain ⟨_, -, -, halert⟩ := Tracker.mem_sweep_iff.mp haway
      rw [halert] at hchange
      cases hchange
  · intro hback
    obtain ⟨_, _, -, -, halert⟩ := h.mem_refresh_iff.mp hback
    exact ⟨.inl hback, by rw [halert]⟩

theorem mem_scanOnce_unseen_iff (h : Follows label threshold sightings alerts tracker) :
    alert ∈ (scanOnce kind tracker now backend).1 ∧ alert.change = .unseen
      ↔ alert ∈ ((tracker.refresh (sightingsIn kind backend) now).2.sweep now).1 := by
  rw [mem_scanOnce_iff]
  constructor
  · rintro ⟨hback | haway, hchange⟩
    · obtain ⟨_, _, -, -, halert⟩ := h.mem_refresh_iff.mp hback
      rw [halert] at hchange
      cases hchange
    · exact haway
  · intro haway
    obtain ⟨_, -, -, halert⟩ := Tracker.mem_sweep_iff.mp haway
    exact ⟨.inr haway, by rw [halert]; rfl⟩

omit [Mergeable α] [Backend σ] in
/-- A scan lists a later sighting when the latest of all sightings is later than before. -/
theorem exists_newer_iff_lt {listed : List (String × Instant)} {last latest : Instant}
    (hlast : IsLatest (sightingsOf id sightings) last)
    (hlatest : IsLatest (sightingsOf id (sightings ++ scanned listed now)) latest) :
    (∃ seen, Tracker.newer id last listed = some seen) ↔ last < latest := by
  rw [sightingsOf_append] at hlatest
  rw [exists_newer_iff]
  constructor
  · rintro ⟨s, hs, hnew⟩
    refine Instant.not_le.mp fun hle => Instant.not_le.mpr hnew ?_
    exact Instant.le_trans (hlatest.le (List.mem_append_right _ hs)) hle
  · intro hnew
    -- The sightings before are no later than the latest of them.
    obtain ⟨s, hs, rfl⟩ := hlatest.1
    rcases List.mem_append.mp hs with hs | hs
    · exact absurd (hlast.le hs) (Instant.not_le.mpr hnew)
    · exact ⟨s, hs, hnew⟩

/-- The search that follows a scan reports a member that the scan has reported as back when the
latest of all sightings is as old as the threshold. -/
theorem reports_both_iff (h : Follows label threshold sightings alerts tracker) :
    Reports (scanOnce kind tracker now backend).1 .returned id
        ∧ Reports (scanOnce kind tracker now backend).1 .unseen id
      ↔ ∃ last latest, Missing sightings alerts id last ∧ last < latest
        ∧ IsLatest (sightingsOf id (sightings ++ scanned (sightingsIn kind backend) now)) latest
        ∧ threshold ≤ now.since latest := by
  have hafter := h.refresh (sightingsIn kind backend) now
  constructor
  · rintro ⟨hback, haway⟩
    obtain ⟨back, hmem, rfl, hchange⟩ := reports_iff.mp hback
    obtain ⟨away, hmem', hid, hchange'⟩ := reports_iff.mp haway
    obtain ⟨last, seen, hmissing, hnewer, -⟩ :=
      h.mem_refresh_iff.mp (h.mem_scanOnce_returned_iff.mp ⟨hmem, hchange⟩)
    obtain ⟨presence, hpresence, hoverdue, -⟩ :=
      Tracker.mem_sweep_iff.mp (h.mem_scanOnce_unseen_iff.mp ⟨hmem', hchange'⟩)
    rw [hid] at hpresence
    obtain ⟨-, -, hold⟩ := (hafter.overdue_iff hpresence now).mp hoverdue
    have hlatest := (hafter.sums hpresence).lastSeen
    have hnew := (exists_newer_iff_lt hmissing.1 hlatest).mp ⟨seen, hnewer⟩
    exact ⟨last, _, hmissing, hnew, hlatest, hold⟩
  · rintro ⟨last, latest, hmissing, hnew, hlatest, hold⟩
    obtain ⟨seen, hnewer⟩ := (exists_newer_iff_lt hmissing.1 hlatest).mpr hnew
    have hback : (⟨.returned, label, id, seen.since last⟩ : Alert)
        ∈ (tracker.refresh (sightingsIn kind backend) now).1 :=
      h.mem_refresh_iff.mpr ⟨last, seen, hmissing, hnewer, rfl⟩
    have hanswered : ¬ Unanswered
        (changesOf id (alerts ++ (tracker.refresh (sightingsIn kind backend) now).1)) := by
      rw [changesOf_append, Tracker.changesOf_refresh, Tracker.mem_refresh_iff.mp hback]
      exact fun hunseen => Change.noConfusion (unanswered_concat.mp hunseen)
    have hfresh : Fresh threshold
        (sightingsOf id (sightings ++ scanned (sightingsIn kind backend) now)) := by
      rw [sightingsOf_append]
      exact (h.fresh_of_missing hmissing).append _
    obtain ⟨presence, hpresence, rfl⟩ :=
      Option.map_eq_some_iff.mp ((hafter.lastSeen_iff id latest).mpr hlatest)
    have hoverdue := (hafter.overdue_iff hpresence now).mpr ⟨hanswered, hfresh, hold⟩
    have haway :
        (tracker.refresh (sightingsIn kind backend) now).2.awayAlert id presence.lastSeen now
          ∈ ((tracker.refresh (sightingsIn kind backend) now).2.sweep now).1 :=
      Tracker.mem_sweep_iff.mpr ⟨presence, hpresence, hoverdue, rfl⟩
    refine ⟨reports_iff.mpr ⟨_, (h.mem_scanOnce_returned_iff.mpr hback).1, rfl, rfl⟩, ?_⟩
    exact reports_iff.mpr ⟨_, (h.mem_scanOnce_unseen_iff.mpr haway).1, rfl, rfl⟩

end

end Follows

/-- Who is reported as back after any events. -/
theorem Tracker.returns_run (label : String) (threshold : Span) (events : List Event) :
    Returns label threshold (events.flatMap Event.sightings)
      ((new label threshold).run events).1 ((new label threshold).run events).2 :=
  have h := Follows.run label threshold events
  { observe := fun _ _ _ _ => h.mem_observe_iff
    refresh := fun _ _ _ => h.mem_refresh_iff
    scan := fun _ _ _ _ => h.mem_scanOnce_returned_iff
    both := fun _ _ _ _ => h.reports_both_iff }

/-! ## A member that is not back -/

/-- A minute after the start of 1970. -/
def minute (n : Nat) : Instant := (Instant.make? (60 * n) 0).getD .epoch

/-- The devices after one was seen and, a quarter of an hour later, was reported as unseen. They may
stay away for ten minutes. -/
def missedDevices : Tracker :=
  ((Tracker.new "device" (.ofMillis 600000)).run
    [.observe "100" (minute 0) (minute 0), .sweep (minute 15)]).2

/-- The snapshot of the device was written in the fifth minute. -/
def writtenEarly : Store.Memory := ⟨.insert .empty ("device", "100") ([], minute 5)⟩

/-- A scan that lists the device for the first time reports it as back after five minutes, and as
unseen for eleven. -/
theorem scanOnce_back_and_unseen :
    (scanOnce EntityKind.device missedDevices (minute 16) writtenEarly).1
        = [⟨.returned, "device", "100", .ofMillis 300000⟩,
          ⟨.unseen, "device", "100", .ofMillis 660000⟩]
      ∧ ¬ (⟨"100", minute 5, minute 16⟩ : Sighting).IsRecent missedDevices.threshold := by
  rw [Sighting.IsRecent]
  decide +kernel

end FieldTelemetry.Watch
