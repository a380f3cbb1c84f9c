import FieldTelemetry.Text.Digits

/-!
# The supervisor

The processes of a collector run until one of them fails or the collector is asked to shut down. The
first failure shuts the others down. From then on they have a deadline to end, and those that do not
keep it are aborted.

The supervisor learns of a shutdown that it did not order itself when the next process ends.

## Main definitions

* `Supervisor`: the processes and what has become of them
* `Supervisor.step`: what an event does
* `Supervisor.outcome`: the failure that the supervisor reports
-/

namespace FieldTelemetry.Collector

/-- How a process ends. -/
inductive Ending
  /-- As it should. -/
  | success
  /-- With an error. -/
  | failure (text : String)
  /-- By a defect. -/
  | panic (text : String)
deriving DecidableEq, Repr, Inhabited

/-- The failure that a process ends with. -/
structure Failure where
  /-- The process, if its error says what went wrong. -/
  name : Option String
  /-- The error. -/
  text : String
deriving DecidableEq, Repr

/-- The wording of a failure. -/
def Failure.message (failure : Failure) : String :=
  match failure.name with
  | some name => "process " ++ name ++ " failed: " ++ failure.text
  | none => "process panicked: " ++ failure.text

/-- The failure of a process of a name, if it ends with one. -/
def Ending.failure? (name : String) : Ending → Option Failure
  | .success => none
  | .failure text => some ⟨some name, text⟩
  | .panic text => some ⟨none, text⟩

/-- What the supervisor does. -/
inductive Phase
  /-- It waits for the processes. -/
  | watching
  /-- It waits for the processes until the deadline. -/
  | draining
  /-- It has ended. -/
  | ended
deriving DecidableEq, Repr

/-- The processes and what has become of them. A process has a number and a name. -/
structure Supervisor where
  /-- The processes that run. -/
  running : List (Nat × String)
  /-- The processes that have ended, in this order. -/
  joined : List (Nat × Ending) := []
  /-- The processes that were aborted. -/
  aborted : List (Nat × String) := []
  /-- The shutdown was ordered. -/
  cancelled : Bool := false
  /-- The failure that is reported. -/
  failure : Option Failure := none
  /-- What the supervisor does. -/
  phase : Phase := .watching
deriving DecidableEq, Repr

/-- What happens to the supervisor. -/
inductive Event
  /-- A process ends. -/
  | ended (number : Nat) (ending : Ending)
  /-- Somebody else orders the shutdown. -/
  | cancelled
  /-- The deadline is over. -/
  | deadline
deriving DecidableEq, Repr

namespace Supervisor

/-- The supervisor of processes of the given names. Without processes it has ended. -/
def new (names : List String) : Supervisor where
  running := names.zipIdx.map fun (name, number) => (number, name)
  phase := if names = [] then .ended else .watching

/-- The phase after a process has ended, and whether the shutdown was ordered by then. -/
def next (phase : Phase) (cancelled : Bool) (running : List (Nat × String)) : Phase :=
  if running = [] then .ended else if cancelled then .draining else phase

/-- Joins a process that has ended. The first failure orders the shutdown, and failures after the
shutdown was noticed are not reported. -/
def join (supervisor : Supervisor) (number : Nat) (ending : Ending) : Supervisor :=
  match supervisor.running.find? (·.1 = number) with
  | none => supervisor
  | some (_, name) =>
    let running := supervisor.running.filter (·.1 ≠ number)
    let failure :=
      -- While processes drain, their failures follow from the shutdown.
      if supervisor.phase = .watching then ending.failure? name else none
    let cancelled := supervisor.cancelled || failure.isSome
    { supervisor with
      running, cancelled
      joined := supervisor.joined ++ [(number, ending)]
      failure := supervisor.failure.or failure
      phase := next supervisor.phase cancelled running }

/-- What an event does. -/
def step (supervisor : Supervisor) (event : Event) : Supervisor :=
  if supervisor.phase = .ended then supervisor
  else match event with
    | .ended number ending => supervisor.join number ending
    -- The order is noticed when the next process ends.
    | .cancelled => { supervisor with cancelled := true }
    | .deadline =>
      if supervisor.phase = .draining then
        { supervisor with running := [], aborted := supervisor.running, phase := .ended }
      else supervisor

/-- What a sequence of events does. -/
def run (supervisor : Supervisor) (events : List Event) : Supervisor := events.foldl step supervisor

/-- The failure that the supervisor reports, or success. -/
def outcome (supervisor : Supervisor) : Except Failure Unit :=
  match supervisor.failure with
  | some failure => .error failure
  | none => .ok ()

end Supervisor

end FieldTelemetry.Collector
