import FieldTelemetry.Intake.Listener
import FieldTelemetry.Intake.Transport
import FieldTelemetry.Pipeline.Tally
import FieldTelemetry.Upload.Envelope

/-!
# The upload endpoint

Uploads come as posts to one of two paths, and a third path reports on the health of the collector.

## Main definitions

* `Endpoint`: the endpoint with its listener and the queue
* `Health`: the report on the health of the collector
* `Answer`: what a client gets
* `Endpoint.upload`, `Endpoint.respond`: the answer to an upload, and to any request
-/

namespace FieldTelemetry.Upload

open Intake (IntakeError Listener Queue)
open Json (slots optional? required?)
open Pipeline (Tally)
open Time (Instant)

/-- What a client sends. -/
structure Call where
  /-- The method. -/
  method : String
  /-- The path, with what follows it. -/
  target : String
  /-- The header. -/
  header : Header
  /-- The body. -/
  body : Octets

/-- The body of an answer. -/
inductive Content
  /-- Nothing. -/
  | none
  /-- A text. -/
  | text (text : String)
  /-- A JSON value. -/
  | json (value : Json)

/-- What a client gets. -/
structure Answer where
  /-- The status. -/
  status : Nat
  /-- The body. -/
  content : Content := .none

/-! ## Health -/

/-- The report on the health of the collector. -/
structure Health where
  /-- Whether requests are accepted, in a word. -/
  status : String
  /-- What the listener has counted. -/
  listener : ListenerCounters
  /-- What the queue has counted. -/
  queue : QueueCounters
  /-- What the pipeline has counted. -/
  pipeline : Option PipelineCounters := none
deriving DecidableEq

instance : Json.Record Health where
  form := slots false ["status", "listener", "queue"] ++ slots true ["pipeline"]
  values x :=
    [some (Json.ofString x.status), some (Json.ofRecord x.listener), some (Json.ofRecord x.queue),
      x.pipeline.map Json.ofRecord]
  ofValues?
    | [status, listener, queue, pipeline] => do
      return ⟨← required? Json.text? status, ← required? Json.record? listener,
        ← required? Json.record? queue, ← optional? Json.record? pipeline⟩
    | _ => none

/-! ## Answers -/

/-- The endpoint with its listener and the queue. -/
structure Endpoint where
  /-- What the listener has counted. -/
  listener : Listener := {}
  /-- The queue. -/
  queue : Queue
  /-- The size of the largest body that is read. -/
  maxBody : Nat := 262144
  /-- What the pipeline has counted, if it is reported. -/
  tally : Option Tally := none

namespace Endpoint

/-- The report on the health of the collector. -/
def health (endpoint : Endpoint) : Health where
  status := if endpoint.queue.isOpen then "saturated" else "ok"
  listener := endpoint.listener.counters
  queue := endpoint.queue.counters
  pipeline := endpoint.tally.map Tally.counters

/-- What a refusal of the queue is called. -/
def refusal : IntakeError → String
  | .circuitOpen => "intake saturated"
  | .closed => "shutting down"

/-- The answer to what the queue made of an upload. An upload that waits for a free place in the
queue has none as yet. -/
def answerTo : Except IntakeError Nat → Answer
  | .ok sequence => ⟨202, .json (.ofMembers [("sequence", .ofNat sequence)])⟩
  | .error error => ⟨503, .text (refusal error)⟩

/-- The answer to an upload. -/
def upload (endpoint : Endpoint) (header : Header) (body : Octets) (now : Instant) :
    Option Answer × Endpoint :=
  match contentOf header body with
  | .error error =>
    (some ⟨400, .text error.message⟩, { endpoint with listener := endpoint.listener.countError })
  | .ok (payload, hints) =>
    let transport := (Intake.Transport.upload (clientOf header)).label
    let request : Intake.Request := { payload, transport, receivedAt := now, hints }
    let (result, listener, queue) := endpoint.listener.submit endpoint.queue request
    (result.map answerTo, { endpoint with listener, queue })

/-- The path of a target, without query and fragment. -/
def pathOf (target : String) : String :=
  String.ofList (target.toList.takeWhile fun c => c ≠ '?' && c ≠ '#')

/-- The answer to a request. -/
def respond (endpoint : Endpoint) (call : Call) (now : Instant) : Option Answer × Endpoint :=
  let path := pathOf call.target
  if path = "/" ∨ path = "/send" then
    -- The method is looked at before the size: nobody reads a body that is not wanted.
    if call.method ≠ "POST" then (some { status := 405 }, endpoint)
    else if endpoint.maxBody < call.body.length then (some { status := 413 }, endpoint)
    else endpoint.upload call.header call.body now
  else if path = "/health" then
    if call.method = "GET" then
      (some ⟨200, .json (.ofRecord endpoint.health)⟩, endpoint)
    else if call.method = "HEAD" then (some { status := 200 }, endpoint)
    else (some { status := 405 }, endpoint)
  else (some ⟨404, .text "not found"⟩, endpoint)

end Endpoint

end FieldTelemetry.Upload
