import FieldTelemetry.Table
import FieldTelemetry.Time.Instant
import FieldTelemetry.Time.Span

/-!
# Staleness

A tracker watches when the members of a population were last seen. A member that was seen and then
stays away for a threshold is reported once as unseen, and when it is seen again, once as returned.
A member that has not been seen recently since the tracker started is never reported.

## Main definitions

* `Presence`: what is known about a member
* `Alert`: a report
* `Tracker.observe`, `Tracker.refresh`, `Tracker.sweep`: sightings, and the search for the unseen
-/

namespace FieldTelemetry.Watch

open Time (Instant Span)

/-- What is known about a member of a population. -/
structure Presence where
  /-- The latest sighting. -/
  lastSeen : Instant
  /-- A sighting was recent when it became known. -/
  everRecent : Bool
  /-- The present absence has been reported. -/
  reported : Bool
deriving DecidableEq

/-- What has changed about a member. -/
inductive Change
  /-- It has not been seen for the threshold. -/
  | unseen
  /-- It was reported unseen, and is back. -/
  | returned
deriving DecidableEq, Repr

/-- A report about a member. -/
structure Alert where
  /-- What has changed. -/
  change : Change
  /-- The population. -/
  label : String
  /-- The member. -/
  id : String
  /-- How long it was away. -/
  away : Span
deriving DecidableEq

/-- The text of a report. -/
def Alert.text (alert : Alert) : String :=
  match alert.change with
  | .unseen => alert.label ++ " " ++ alert.id ++ " has not been seen for " ++ Span.render alert.away
  | .returned => alert.label ++ " " ++ alert.id ++ " is back after " ++ Span.render alert.away

/-- When the members of a population were last seen. -/
structure Tracker where
  /-- The population. -/
  label : String
  /-- How long a member may stay away. -/
  threshold : Span
  /-- The members that have been seen. -/
  members : Table String Presence

namespace Tracker

/-- A tracker of a population that has seen nobody. -/
def new (label : String) (threshold : Span) : Tracker := ⟨label, threshold, .empty⟩

/-- What is known about a member. -/
def presence? (tracker : Tracker) (id : String) : Option Presence := tracker.members.get? id

/-- The sighting is less than the threshold old. -/
def recent (tracker : Tracker) (seen now : Instant) : Bool :=
  now.since seen < tracker.threshold

/-- The tracker after a sighting of a member that becomes known at the instant `now`. A sighting
that is not later than the latest one tells nothing. -/
def observe (tracker : Tracker) (id : String) (seen now : Instant) : Option Alert × Tracker :=
  let recent := tracker.recent seen now
  match tracker.presence? id with
  | none => (none, { tracker with members := tracker.members.insert id ⟨seen, recent, false⟩ })
  | some presence =>
    -- Sightings come out of order when copies take different ways.
    if seen ≤ presence.lastSeen then (none, tracker)
    else
      let alert : Alert := ⟨.returned, tracker.label, id, seen.since presence.lastSeen⟩
      -- A member that has never been heard in time is not missed.
      let later : Presence := ⟨seen, presence.everRecent || recent, false⟩
      (if presence.reported then some alert else none,
        { tracker with members := tracker.members.insert id later })

/-- The tracker after several sightings. -/
def refresh (tracker : Tracker) (sightings : List (String × Instant)) (now : Instant) :
    List Alert × Tracker :=
  match sightings with
  | [] => ([], tracker)
  | (id, seen) :: rest =>
    let (alert, tracker) := tracker.observe id seen now
    let (alerts, tracker) := tracker.refresh rest now
    (alert.toList ++ alerts, tracker)

/-- The absence of a member is to be reported. -/
def overdue (tracker : Tracker) (presence : Presence) (now : Instant) : Bool :=
  !presence.reported && presence.everRecent && tracker.threshold ≤ now.since presence.lastSeen

/-- The reports about members that are overdue, in the order of their ids. -/
def overdueAlerts (tracker : Tracker) (now : Instant) : List Alert :=
  let overdue := tracker.members.entries.filter fun (_, presence) => tracker.overdue presence now
  let alerts : List Alert := overdue.map fun (id, presence) =>
    ⟨.unseen, tracker.label, id, now.since presence.lastSeen⟩
  alerts.mergeSort fun a b => a.id ≤ b.id

/-- The reports about members that are overdue, and the tracker that remembers them as reported. -/
def sweep (tracker : Tracker) (now : Instant) : List Alert × Tracker :=
  (tracker.overdueAlerts now,
    { tracker with members := tracker.members.mapValues fun _ presence =>
        if tracker.overdue presence now then { presence with reported := true } else presence })

end Tracker

end FieldTelemetry.Watch
