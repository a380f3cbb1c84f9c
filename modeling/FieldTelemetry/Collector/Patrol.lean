import FieldTelemetry.Pipeline.Dispatch
import FieldTelemetry.Pipeline.Heartbeat

/-!
# Rounds

At fixed intervals a collector searches for members that have not been seen, tells the operators,
and says that it is alive itself. In between, snapshots are updated.

## Main definitions

* `Patrol`: what a round is made with
* `Patrol.round`: one round
* `agenda`: rounds and updates in the order of their times
* `Patrol.perform`: what an agenda does
-/

namespace FieldTelemetry.Collector

open Intake (Queue)
open Pipeline (Heartbeat Tally)
open Store (Backend EntityKind Mergeable)
open Time (Instant)
open Watch (Alert Tracker)

/-- What a round is made with. -/
structure Patrol (α σ : Type) where
  /-- The kind of the members. -/
  kind : EntityKind α
  /-- When they were last seen. -/
  tracker : Tracker
  /-- This collector. -/
  heartbeat : Heartbeat
  /-- What the pipeline has counted. -/
  tally : Tally := .zero
  /-- The intake queue. -/
  queue : Queue
  /-- The number of attempts to store an update. -/
  attempts : Nat := 8
  /-- The snapshots. -/
  backend : σ

/-- What is done at a time. -/
inductive Errand
  /-- A member is heard of. -/
  | touch (id : String)
  /-- A round. -/
  | round
deriving DecidableEq, Repr

/-- The errands at their times: rounds from the start to the end at fixed intervals, and touches. A
touch comes before a round at the same time. -/
def agenda (interval until_ : Nat) (touches : List (Nat × String)) : List (Nat × Errand) :=
  -- The first round is at the start, and the last one not after the end.
  let rounds := (List.range (until_ / interval + 1)).map fun n => (n * interval, Errand.round)
  let all := touches.map (Prod.map id Errand.touch) ++ rounds
  all.mergeSort fun a b => a.1 ≤ b.1

namespace Patrol

variable {α σ : Type} [Mergeable α] [Backend σ]

/-- One round: the search for the unseen, and a heartbeat. -/
def round (patrol : Patrol α σ) (now : Instant) : List Alert × Patrol α σ :=
  let (alerts, tracker, backend) :=
    Pipeline.scanOnce patrol.kind patrol.tracker now patrol.backend
  -- A heartbeat that is not stored is made up for by the next.
  let (_, backend) :=
    patrol.heartbeat.beat patrol.tally patrol.queue patrol.attempts now backend
  (alerts, { patrol with tracker, backend })

/-- A member is heard of, without any news. -/
def touch (patrol : Patrol α σ) (id : String) (now : Instant) : Patrol α σ :=
  let call : Store.Call α :=
    { kind := patrol.kind, id, update := default, attempts := patrol.attempts }
  { patrol with backend := (call.run now patrol.backend).2 }

/-- What is done at a time, with the alerts. -/
def carryOut (patrol : Patrol α σ) (now : Instant) : Errand → List Alert × Patrol α σ
  | .touch id => ([], patrol.touch id now)
  | .round => patrol.round now

/-- What an agenda does, with the alerts and their times. The times are in milliseconds from the
start. -/
def perform (patrol : Patrol α σ) (start : Instant) :
    List (Nat × Errand) → List (Nat × Alert) × Patrol α σ
  | [] => ([], patrol)
  | (time, errand) :: rest =>
    let now := (Instant.ofNanos? (start.nanos + time * 1000000)).getD start
    let (alerts, patrol) := patrol.carryOut now errand
    let (later, patrol) := patrol.perform start rest
    (alerts.map (fun alert => (time, alert)) ++ later, patrol)

end Patrol

end FieldTelemetry.Collector
