import FieldTelemetry.Intake.Queue

/-!
# Listeners

A listener turns what comes over its transport into requests and counts what becomes of them.

## Main definitions

* `Listener`: what a listener has counted
* `Listener.submit`: a request of a listener on its way into the queue
-/

namespace FieldTelemetry.Intake

/-- What a listener has counted. -/
structure Listener where
  /-- Requests that were accepted. -/
  received : Nat := 0
  /-- Octets of their payloads. -/
  bytes : Nat := 0
  /-- Requests that were refused. -/
  rejected : Nat := 0
  /-- Transmissions that could not be read. -/
  errors : Nat := 0
deriving DecidableEq, Repr, Inhabited

namespace Listener

/-- One more transmission that could not be read. -/
def countError (listener : Listener) : Listener := { listener with errors := listener.errors + 1 }

/-- The listener after what has become of a request. -/
def count (listener : Listener) (request : Request) : Except IntakeError Nat → Listener
  | .ok _ =>
    { listener with
      received := listener.received + 1
      bytes := listener.bytes + request.payload.length }
  | .error _ => { listener with rejected := listener.rejected + 1 }

/-- Puts a request into the queue and counts what becomes of it. -/
def submit (listener : Listener) (queue : Queue) (request : Request) :
    Option (Except IntakeError Nat) × Listener × Queue :=
  match queue.enqueue request with
  | (none, queue) => (none, listener, queue)
  | (some result, queue) => (some result, listener.count request result, queue)

/-- The counts of a listener as it reports them. -/
def counters (listener : Listener) : ListenerCounters where
  received := .ofNat listener.received
  bytes := .ofNat listener.bytes
  rejected := .ofNat listener.rejected
  errors := .ofNat listener.errors

end Listener

end FieldTelemetry.Intake
