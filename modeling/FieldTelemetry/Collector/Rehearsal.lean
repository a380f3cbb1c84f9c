import FieldTelemetry.Collector.Supervisor

/-!
# Rehearsals

A rehearsal runs a supervisor over processes of known durations. Every process ends a fixed time
after the start, or after the shutdown, and time passes from one event to the next.

## Main definitions

* `Part`: a process of known duration
* `Rehearsal`: a supervisor at a point of time
* `Rehearsal.perform`: a rehearsal to its end
-/

namespace FieldTelemetry.Collector

/-- A process of known duration. -/
structure Part where
  /-- Its name. -/
  name : String
  /-- The duration counts from the shutdown. -/
  waits : Bool
  /-- The duration in milliseconds. -/
  duration : Nat
  /-- How the process ends. -/
  ending : Ending
deriving DecidableEq, Repr, Inhabited

/-- A supervisor at a point of time. All times are in milliseconds from the start. -/
structure Rehearsal where
  /-- The processes, by their numbers. -/
  parts : List Part
  /-- How long processes may run on after the shutdown. -/
  drain : Nat := 30000
  /-- When somebody else orders the shutdown. -/
  order : Option Nat := none
  /-- The supervisor. -/
  supervisor : Supervisor
  /-- The time. -/
  now : Nat := 0
  /-- When the shutdown was ordered. -/
  shutdown : Option Nat := none
  /-- When the supervisor began to wait for the deadline. -/
  drainedFrom : Option Nat := none
  /-- When processes ended, with their names. -/
  ends : List (Nat × String) := []

/-- An event to come. -/
structure Upcoming where
  /-- When it happens. -/
  at_ : Nat
  /-- Since when that has been known. Of two events at a time, the one known longer comes first. -/
  since : Nat
  /-- The event. -/
  event : Event

/-- One event comes before another, where that is the later one in a list. -/
def Upcoming.before (a b : Upcoming) : Bool :=
  a.at_ < b.at_ || (a.at_ == b.at_ && a.since ≤ b.since)

/-- The earliest of some events. -/
def earliest? : List Upcoming → Option Upcoming
  | [] => none
  | first :: rest =>
    match earliest? rest with
    | none => some first
    | some other => some (if first.before other then first else other)

namespace Rehearsal

/-- A rehearsal at the start. -/
def new (parts : List Part) (drain : Nat) (order : Option Nat) : Rehearsal where
  parts := parts
  drain := drain
  order := order
  supervisor := .new (parts.map (·.name))

/-- The end of a running process, if its time is known. -/
def endOf? (rehearsal : Rehearsal) (number : Nat) : Option Upcoming := do
  let part ← rehearsal.parts[number]?
  let event := Event.ended number part.ending
  if part.waits then
    let shutdown ← rehearsal.shutdown
    return ⟨shutdown + part.duration, shutdown, event⟩
  else return ⟨part.duration, 0, event⟩

/-- The deadline, if the supervisor waits for it. Unless processes have no time at all to run on,
it comes before all else at its time. -/
def deadline? (rehearsal : Rehearsal) : Option Upcoming := do
  let start ← rehearsal.drainedFrom
  return ⟨start + rehearsal.drain, if rehearsal.drain = 0 then start else 0, .deadline⟩

/-- The order to shut down, if it has not been given. -/
def order? (rehearsal : Rehearsal) : Option Upcoming := do
  guard !rehearsal.supervisor.cancelled
  return ⟨← rehearsal.order, 0, .cancelled⟩

/-- The events whose time is known. -/
def upcoming (rehearsal : Rehearsal) : List Upcoming :=
  rehearsal.deadline?.toList ++ rehearsal.order?.toList
    ++ rehearsal.supervisor.running.filterMap fun (number, _) => rehearsal.endOf? number

/-- The rehearsal after an event. -/
def advance (rehearsal : Rehearsal) (next : Upcoming) : Rehearsal :=
  let supervisor := rehearsal.supervisor.step next.event
  let ended := match next.event with
    | .ended number _ => (rehearsal.parts[number]?).toList.map fun part => (next.at_, part.name)
    | _ => []
  { rehearsal with
    supervisor
    now := next.at_
    shutdown := rehearsal.shutdown.or (if supervisor.cancelled then some next.at_ else none)
    drainedFrom := rehearsal.drainedFrom.or
      (if supervisor.phase = .draining then some next.at_ else none)
    ends := rehearsal.ends ++ ended }

/-- The rehearsal after a number of events, or fewer when nothing more happens. -/
def after : (events : Nat) → Rehearsal → Rehearsal
  | 0, rehearsal => rehearsal
  | events + 1, rehearsal =>
    if rehearsal.supervisor.phase = .ended then rehearsal
    else match earliest? rehearsal.upcoming with
      | none => rehearsal
      | some next => after events (rehearsal.advance next)

/-- The rehearsal at its end. Every process ends once, and the shutdown and the deadline come once
at most. -/
def perform (rehearsal : Rehearsal) : Rehearsal := after (rehearsal.parts.length + 2) rehearsal

end Rehearsal

end FieldTelemetry.Collector
