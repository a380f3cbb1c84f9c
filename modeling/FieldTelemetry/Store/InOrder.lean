import FieldTelemetry.Store.Lanes
import FieldTelemetry.Store.Reconcile

/-!
# Reconciliation in order

A call takes its ticket when it is made, and begins when it is its turn.

## Main definitions

* `Queued`: a call with its ticket
* `Queued.run?`: all steps of a call whose turn it is
* `runAll`: all steps of several calls
-/

namespace FieldTelemetry.Store

open Time (Instant)

/-- A call with its ticket. -/
structure Queued (α : Type) where
  /-- Its place in the lane of the entity. -/
  ticket : Ticket
  /-- The call. -/
  call : Call α

variable {α σ : Type}

/-- A call with the next ticket for its entity. -/
def Call.queue (call : Call α) (lanes : Lanes) : Queued α × Lanes :=
  let (ticket, lanes) := lanes.take call.id
  (⟨ticket, call⟩, lanes)

/-- Calls with their tickets, taken in order. -/
def queueAll (calls : List (Call α)) (lanes : Lanes) : List (Queued α) × Lanes :=
  match calls with
  | [] => ([], lanes)
  | call :: calls =>
    let (first, lanes) := call.queue lanes
    let (rest, lanes) := queueAll calls lanes
    (first :: rest, lanes)

variable [Mergeable α] [Backend σ]

/-- All steps of a call, after which its ticket is given back. There are none when it is not its
turn. -/
def Queued.run? (queued : Queued α) (lanes : Lanes) (now : Instant) (state : σ) :
    Option (Except StoreError (Snapshot α) × Lanes × σ) :=
  if lanes.mayPass queued.ticket then
    let (result, state) := queued.call.run now state
    some (result, lanes.giveBack queued.ticket, state)
  else none

/-- All steps of several calls, one call after the other. -/
def runAll (calls : List (Queued α)) (lanes : Lanes) (now : Instant) (state : σ) :
    List (Except StoreError (Snapshot α)) × Lanes × σ :=
  match calls with
  | [] => ([], lanes, state)
  | call :: calls =>
    match call.run? lanes now state with
    | none => runAll calls lanes now state
    | some (result, lanes, state) =>
      let (results, lanes, state) := runAll calls lanes now state
      (result :: results, lanes, state)

end FieldTelemetry.Store
