import FieldTelemetry.Record.Counters

/-!
# What the pipeline counts

## Main definitions

* `Counter`: a thing that is counted
* `Tally`: how many of each have been counted
* `Tally.add`: more of a thing
-/

namespace FieldTelemetry.Pipeline

/-- A thing that is counted. -/
inductive Counter
  /-- Requests taken from the intake. -/
  | requests
  /-- Messages found in them. -/
  | messages
  /-- Messages accepted as readings. -/
  | accepted
  /-- Messages dropped as copies. -/
  | duplicates
  /-- Payloads and messages that could not be read or had no sender. -/
  | malformed
  /-- Messages that refer to an unknown stamp. -/
  | unstampable
  /-- Readings with place and time taken from another stamp. -/
  | degraded
  /-- Messages that carry no measurements. -/
  | commands
  /-- Failed deliveries of readings. -/
  | exportFailures
  /-- Updates that were not stored. -/
  | storeFailures
deriving DecidableEq, Repr

/-- The things that are counted. -/
def Counter.all : List Counter :=
  [.requests, .messages, .accepted, .duplicates, .malformed, .unstampable, .degraded, .commands,
    .exportFailures, .storeFailures]

/-- The name of a counter. -/
def Counter.name : Counter → String
  | .requests => "requests"
  | .messages => "messages"
  | .accepted => "accepted"
  | .duplicates => "duplicates"
  | .malformed => "malformed"
  | .unstampable => "unstampable"
  | .degraded => "degraded"
  | .commands => "commands"
  | .exportFailures => "export_failures"
  | .storeFailures => "store_failures"

/-- How many of each thing have been counted. -/
structure Tally where
  /-- The count of a thing. -/
  count : Counter → Nat

namespace Tally

/-- Nothing has been counted. -/
def zero : Tally := ⟨fun _ => 0⟩

instance : Inhabited Tally := ⟨zero⟩

/-- More of a thing. -/
def add (tally : Tally) (counter : Counter) (more : Nat) : Tally :=
  ⟨fun c => if c = counter then tally.count c + more else tally.count c⟩

/-- One more of a thing. -/
def bump (tally : Tally) (counter : Counter) : Tally := tally.add counter 1

@[simp]
theorem count_zero (c : Counter) : zero.count c = 0 := rfl

@[simp]
theorem count_bump (tally : Tally) (counter c : Counter) :
    (tally.bump counter).count c = if c = counter then tally.count c + 1 else tally.count c := rfl

/-- The counts as they are reported. -/
def counters (tally : Tally) : PipelineCounters where
  requests := .ofNat (tally.count .requests)
  messages := .ofNat (tally.count .messages)
  accepted := .ofNat (tally.count .accepted)
  duplicates := .ofNat (tally.count .duplicates)
  malformed := .ofNat (tally.count .malformed)
  unstampable := .ofNat (tally.count .unstampable)
  degraded := .ofNat (tally.count .degraded)
  commands := .ofNat (tally.count .commands)
  exportFailures := .ofNat (tally.count .exportFailures)
  storeFailures := .ofNat (tally.count .storeFailures)

end Tally

end FieldTelemetry.Pipeline
