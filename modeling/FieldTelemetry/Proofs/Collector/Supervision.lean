import FieldTelemetry.Collector.Supervisor
import Mathlib.Data.List.Basic

/-!
# The supervisor among its processes

The processes of a collector end at any time, while the supervisor waits for them one after the
other: it joins the one that ended first, and then looks at the token that all of them share.
Somebody else may cancel the token between any two steps. From the first look that finds it
cancelled the supervisor waits for the rest until the drain times out.

What has happened is written down beside the supervisor, and no step depends on it.

## Main definitions

* `Completion`: a process that has ended
* `Supervision`: the supervisor among its processes
* `Supervision.act`, `Supervision.run`: one step of a process, of the supervisor or of others, and
  several
* `Supervision.Acted`: all that a step can do

## Main results

* `Supervision.acted`: a step does one of the things that a step can do
-/

namespace FieldTelemetry.Collector

/-- A process that has ended. -/
structure Completion where
  /-- The number of the process. -/
  number : Nat
  /-- Its name. -/
  name : String
  /-- How it ended. -/
  ending : Ending
deriving DecidableEq

namespace Completion

/-- The process. -/
def process (completion : Completion) : Nat × String := (completion.number, completion.name)

/-- The failure that the process ended with, if it failed. -/
def failure? (completion : Completion) : Option Failure :=
  completion.ending.failure? completion.name

/-- The end of the process, as an event for a supervisor that does not tell joining from looking. -/
def event (completion : Completion) : Event := .ended completion.number completion.ending

end Completion

/-- How far the supervisor has come. -/
inductive Place
  /-- It waits for the next process to end. -/
  | watching
  /-- It has joined a process, and will look at the token next. -/
  | looking (completion : Completion)
  /-- It waits for the processes until the drain times out. -/
  | draining
  /-- It has returned. -/
  | returned
deriving DecidableEq

/-- The supervisor among its processes. Everything from `ordered` on is written down beside them. -/
structure Supervision where
  /-- How long processes may run on after the shutdown, in milliseconds. -/
  drain : Nat
  /-- The processes that run. -/
  running : List (Nat × String)
  /-- The processes that have ended and were not joined so far, in the order of their ends. -/
  finished : List Completion := []
  /-- The shared token is cancelled. -/
  token : Bool := false
  /-- The failure to be returned. -/
  failure : Option Failure := none
  /-- How far the supervisor has come. -/
  place : Place := .watching
  /-- The time in milliseconds. -/
  now : Nat := 0
  /-- When the drain began. -/
  drainedFrom : Option Nat := none
  /-- Somebody else has cancelled the token. -/
  ordered : Bool := false
  /-- The processes that have ended, in the order of their ends. -/
  ends : List Completion := []
  /-- The processes that were joined, in this order. With each of them stands whether the supervisor
  found the token cancelled then. -/
  joined : List (Completion × Bool) := []
  /-- The processes that were aborted. -/
  aborted : List (Nat × String) := []
  /-- What has happened, for a supervisor that does not tell joining from looking. -/
  events : List Event := []

namespace Supervision

/-- What happens. -/
inductive Act
  /-- A process ends. -/
  | ended (number : Nat) (ending : Ending)
  /-- Somebody else cancels the token. -/
  | ordered
  /-- Time passes, in milliseconds. -/
  | passed (time : Nat)
  /-- The supervisor takes a step. -/
  | supervisor
  /-- The drain times out, if its time has come. -/
  | timeout

/-- Processes of the given names at the start. -/
def start (names : List String) (drain : Nat) : Supervision where
  drain := drain
  running := (Supervisor.new names).running

/-! ## Steps -/

/-- A process that has ended waits to be joined. -/
def finish (s : Supervision) (completion : Completion) : Supervision :=
  { s with
    running := s.running.filter (·.1 ≠ completion.number)
    finished := s.finished ++ [completion]
    ends := s.ends ++ [completion] }

/-- The supervisor joins the process that ended first while it watches. A failure cancels the
token. -/
def take (s : Supervision) (completion : Completion) (rest : List Completion) : Supervision :=
  { s with
    finished := rest
    token := s.token || completion.failure?.isSome
    failure := s.failure.or completion.failure?
    place := .looking completion }

/-- What was found at the look after a process was joined is written down. -/
def note (s : Supervision) (completion : Completion) : Supervision :=
  { s with
    joined := s.joined ++ [(completion, s.token)]
    events := s.events ++ [completion.event] }

/-- There is no process left to join. -/
def Empty (s : Supervision) : Prop := s.running = [] ∧ s.finished = []

instance (s : Supervision) : Decidable s.Empty := inferInstanceAs (Decidable (_ ∧ _))

/-- The supervisor looks at the token. -/
def look (s : Supervision) : Supervision :=
  if s.token then
    if s.Empty then { s with place := .returned }
    else { s with place := .draining, drainedFrom := some s.now }
  else { s with place := .watching }

/-- The next step of the supervisor. It waits while no process has ended. -/
def goOn (s : Supervision) : Supervision :=
  match s.place, s.finished with
  | .watching, completion :: rest => s.take completion rest
  | .looking completion, _ => (s.note completion).look
  | .draining, completion :: rest => { s with finished := rest }.note completion
  | .watching, [] | .draining, [] => if s.running = [] then { s with place := .returned } else s
  | .returned, _ => s

/-- The drain has timed out. The processes that run are aborted, and those that have ended are
joined. -/
def abort (s : Supervision) : Supervision :=
  { s with
    running := []
    finished := []
    place := .returned
    joined := s.joined ++ s.finished.map fun completion => (completion, s.token)
    aborted := s.running
    events := s.events ++ s.finished.map Completion.event ++ [.deadline] }

/-- The drain has gone on for its time. -/
def IsOver (s : Supervision) : Prop :=
  s.place = .draining ∧ ∃ since ∈ s.drainedFrom, since + s.drain ≤ s.now

instance (s : Supervision) : Decidable s.IsOver :=
  inferInstanceAs (Decidable (_ ∧ ∃ since ∈ s.drainedFrom, since + s.drain ≤ s.now))

/-- A step of a process, of the supervisor or of others. A process that does not run cannot end. -/
def act (s : Supervision) : Act → Supervision
  | .ended number ending =>
    match s.running.find? (·.1 = number) with
    | none => s
    | some (_, name) => s.finish ⟨number, name, ending⟩
  | .ordered => { s with token := true, ordered := true, events := s.events ++ [.cancelled] }
  | .passed time => { s with now := s.now + time }
  | .supervisor => s.goOn
  | .timeout => if s.IsOver then s.abort else s

/-- Several steps. -/
def run (s : Supervision) (acts : List Act) : Supervision := acts.foldl act s

theorem run_concat (s : Supervision) (acts : List Act) (last : Act) :
    s.run (acts ++ [last]) = (s.run acts).act last := by
  rw [run, run, List.foldl_append]
  rfl

/-- What the supervisor returns. -/
def outcome (s : Supervision) : Except Failure Unit :=
  match s.failure with
  | some failure => .error failure
  | none => .ok ()

/-! ## What a step does -/

/-- What a look at the token leads to. -/
theorem look_cases (s : Supervision) :
    (s.token = true ∧ s.Empty ∧ s.look = { s with place := .returned })
      ∨ (s.token = true ∧ ¬ s.Empty
        ∧ s.look = { s with place := .draining, drainedFrom := some s.now })
      ∨ (s.token = false ∧ s.look = { s with place := .watching }) := by
  unfold look
  split
  · split
    · exact .inl ⟨‹_›, ‹_›, rfl⟩
    · exact .inr (.inl ⟨‹_›, ‹_›, rfl⟩)
  · rename_i htoken
    exact .inr (.inr ⟨Bool.eq_false_iff.mpr htoken, rfl⟩)

@[simp] theorem look_events (s : Supervision) : s.look.events = s.events := by
  rcases s.look_cases with ⟨-, -, hlook⟩ | ⟨-, -, hlook⟩ | ⟨-, hlook⟩ <;> rw [hlook]

/-- All that a step can do. -/
inductive Acted (s : Supervision) : Supervision → Prop
  /-- Nothing happens. -/
  | waited : Acted s s
  /-- A process ends. -/
  | finished {completion : Completion} (hrunning : completion.process ∈ s.running) :
    Acted s (s.finish completion)
  /-- The cancellation comes from outside. -/
  | ordered :
    Acted s { s with token := true, ordered := true, events := s.events ++ [.cancelled] }
  /-- Time goes by. -/
  | passed (time : Nat) : Acted s { s with now := s.now + time }
  /-- The supervisor joins the next process that has ended. -/
  | took {completion : Completion} {rest : List Completion} (hplace : s.place = .watching)
    (hfinished : s.finished = completion :: rest) : Acted s (s.take completion rest)
  /-- It looks at the token. -/
  | looked {completion : Completion} (hplace : s.place = .looking completion) :
    Acted s (s.note completion).look
  /-- After the cancellation it joins the others one by one. -/
  | drained {completion : Completion} {rest : List Completion} (hplace : s.place = .draining)
    (hfinished : s.finished = completion :: rest) :
    Acted s ({ s with finished := rest }.note completion)
  /-- The supervisor returns when no process is left. -/
  | returned (hplace : s.place = .watching ∨ s.place = .draining) (hempty : s.Empty) :
    Acted s { s with place := .returned }
  /-- The others are aborted when the time of the drain is over. -/
  | aborted (hover : s.IsOver) : Acted s s.abort

theorem acted_goOn (s : Supervision) : s.Acted s.goOn := by
  unfold goOn
  split
  · exact .took ‹_› ‹_›
  · exact .looked ‹_›
  · exact .drained ‹_› ‹_›
  · split
    · exact .returned (.inl ‹_›) ⟨‹_›, ‹_›⟩
    · exact .waited
  · split
    · exact .returned (.inr ‹_›) ⟨‹_›, ‹_›⟩
    · exact .waited
  · exact .waited

/-- A step does one of the things that a step can do. -/
theorem acted (s : Supervision) (act : Act) : s.Acted (s.act act) := by
  cases act with
  | ended number ending =>
    rw [Supervision.act]
    split
    · exact .waited
    · rename_i found name hfound
      obtain rfl : found = number := by simpa using List.find?_some hfound
      exact .finished (List.mem_of_find?_eq_some hfound)
  | ordered => exact .ordered
  | passed time => exact .passed time
  | supervisor => exact s.acted_goOn
  | timeout =>
    rw [Supervision.act]
    split
    · exact .aborted ‹_›
    · exact .waited

end Supervision

end FieldTelemetry.Collector
