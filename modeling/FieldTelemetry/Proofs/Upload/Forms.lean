import FieldTelemetry.Proofs.Intake.Enqueue
import FieldTelemetry.Proofs.Upload.Content
import FieldTelemetry.Upload.Endpoint

/-!
# The two forms of an upload

A payload can be posted as it is, or in an envelope. Both forms make the same request and get the
same answer, whatever the queue is like. What an envelope says about the gateway takes the place of
what the header says, one value at a time, and of nothing else.

## Main definitions

* `Call.IsRaw`, `Call.IsEnveloped`: posts of a payload, as it is and in an envelope
* `SameSender`: headers that say the same about the client and the gateway
* `Endpoint.Agree`: what becomes of a payload in both forms

## Main results

* `sameSender_of_others`: headers that differ in the type of the content only
* `Endpoint.agree`: both forms of an upload at any endpoint
-/

namespace FieldTelemetry.Upload

open Intake (Hints Queue Request)
open Net (Base64.encode Base64.trim_encode)
open Time (Instant)

/-! ## Forms -/

/-- An upload is posted. -/
structure Call.IsPost (call : Call) : Prop where
  /-- Its method is that of a post. -/
  method : call.method = "POST"
  /-- Its path is one of the two that take uploads. -/
  path : Endpoint.pathOf call.target = "/" ∨ Endpoint.pathOf call.target = "/send"

/-- A payload is posted as it is, and the header does not announce JSON. -/
structure Call.IsRaw (call : Call) (payload : Octets) : Prop extends call.IsPost where
  /-- The header does not announce JSON. -/
  announced : isEnvelope call.header = false
  /-- The body is the payload. -/
  body : call.body = payload

/-- A payload is posted in an envelope, with what the envelope says about the gateway. -/
structure Call.IsEnveloped (call : Call) (payload : Octets) (gateway : Option Hints) : Prop
    extends call.IsPost where
  /-- The header announces JSON. -/
  announced : isEnvelope call.header = true
  /-- The body is an envelope with the payload in base 64. -/
  body : Envelope.read? call.body = some ⟨Base64.encode payload, gateway⟩

/-- The fields of a header that say something about the client or the gateway. -/
def senderFields : List String :=
  ["x-telecast-client", "x-gateway-id", "x-gateway-lat", "x-gateway-lon", "x-gateway-alt",
    "x-gateway-snr", "x-gateway-location"]

/-- Two headers say the same about the client and the gateway. -/
def SameSender (header header' : Header) : Prop :=
  ∀ name ∈ senderFields, header.value? name = header'.value? name

/-! ## Senders -/

namespace SameSender

variable {header header' : Header}

theorem clientOf_eq (h : SameSender header header') : clientOf header = clientOf header' := by
  rw [clientOf, clientOf, h "x-telecast-client" (by decide)]

theorem hintsOf_eq (h : SameSender header header') : hintsOf header = hintsOf header' := by
  simp only [hintsOf, Header.real?, Header.signed?, h "x-gateway-id" (by decide),
    h "x-gateway-lat" (by decide), h "x-gateway-lon" (by decide), h "x-gateway-alt" (by decide),
    h "x-gateway-snr" (by decide), h "x-gateway-location" (by decide)]

end SameSender

/-- The fields of a header but the type of the content. -/
def Header.others (header : Header) : Header :=
  header.filter fun (name, _) => Header.lower name ≠ "content-type"

theorem Header.value?_others (header : Header) {name : String}
    (h : Header.lower name ≠ "content-type") : header.others.value? name = header.value? name := by
  have hfind : header.others.find? (fun (n, _) => Header.lower n = Header.lower name)
      = header.find? fun (n, _) => Header.lower n = Header.lower name := by
    rw [Header.others, List.find?_filter]
    congr 1
    funext field
    by_cases hname : Header.lower field.1 = Header.lower name
    · simp [hname, h]
    · simp [hname]
  rw [Header.value?, Header.value?, hfind]

/-- Headers that differ in the type of the content only say the same. -/
theorem sameSender_of_others {header header' : Header} (h : header.others = header'.others) :
    SameSender header header' := by
  intro name hname
  have hother : Header.lower name ≠ "content-type" := by
    revert name
    decide
  rw [← header.value?_others hother, h, header'.value?_others hother]

/-! ## What becomes of an upload -/

namespace Endpoint

/-- The endpoint with other requests in the queue. -/
def withWaiting (endpoint : Endpoint) (waiting : List Request) : Endpoint :=
  { endpoint with queue := { endpoint.queue with waiting } }

/-- What becomes of a payload that is posted in both forms. The envelope has what it says about the
gateway, and it is filled from the header. -/
structure Agree (endpoint : Endpoint) (payload : Octets) (gateway : Option Hints) (filled : Hints)
    (now : Instant) (raw enveloped : Call) : Prop where
  /-- What the envelope says comes first, one value at a time. -/
  filled_from : Filled (gateway.getD {}) (hintsOf raw.header) filled
  /-- As it is, the payload is submitted with what the header says. -/
  raw_eq : endpoint.respond raw now
    = endpoint.submitted (requestOf raw.header payload (hintsOf raw.header) now)
  /-- In an envelope it is submitted in the same request, but for the hints. -/
  enveloped_eq : endpoint.respond enveloped now
    = endpoint.submitted (requestOf raw.header payload filled now)
  /-- An envelope that says nothing about the gateway makes no difference at all. -/
  same : gateway = none → endpoint.respond enveloped now = endpoint.respond raw now
  /-- No envelope makes a difference to the answer. -/
  answer : (endpoint.respond enveloped now).1 = (endpoint.respond raw now).1
  /-- It makes none to the endpoint when the queue does not take the request at once. -/
  not_accepted : ¬ endpoint.queue.Accepts →
    endpoint.respond enveloped now = endpoint.respond raw now
  /-- When it does, the requests in the queue differ in their hints, and nothing else differs. -/
  accepted : endpoint.queue.Accepts → ∃ request : Request,
    request = { requestOf raw.header payload (hintsOf raw.header) now with
      sequence := endpoint.queue.numbered + 1 }
    ∧ (endpoint.respond raw now).2.queue.waiting = endpoint.queue.waiting ++ [request]
    ∧ (endpoint.respond enveloped now).2 = (endpoint.respond raw now).2.withWaiting
      (endpoint.queue.waiting ++ [{ request with hints := filled }])

variable {endpoint : Endpoint} {now : Instant}

theorem respond_of_isPost {call : Call} (h : call.IsPost)
    (hsize : call.body.length ≤ endpoint.maxBody) :
    endpoint.respond call now = endpoint.upload call.header call.body now := by
  have hmethod : ¬ call.method ≠ "POST" := not_not.mpr h.method
  rw [respond, if_pos h.path, if_neg hmethod, if_neg (by omega)]

/-- A queue that takes no request at once answers all requests alike. -/
theorem submitted_of_not_accepts (h : ¬ endpoint.queue.Accepts) (request other : Request) :
    endpoint.submitted other = endpoint.submitted request := by
  obtain ⟨hresult, -, hall⟩ := Queue.enqueue_of_not_accepts h request
  rw [submitted, submitted, Intake.Listener.submit, Intake.Listener.submit, hall other]
  generalize endpoint.queue.enqueue request = left at hresult
  obtain ⟨_ | ⟨error | sequence⟩, queue⟩ := left
  · rfl
  · rfl
  · exact absurd rfl (hresult sequence)

theorem submitted_of_accepts (h : endpoint.queue.Accepts) (request : Request) :
    endpoint.submitted request = (some (answerTo (.ok (endpoint.queue.numbered + 1))),
      { endpoint with
        listener := endpoint.listener.count request (.ok (endpoint.queue.numbered + 1))
        queue := { endpoint.queue.joined with
          waiting := endpoint.queue.waiting
            ++ [{ request with sequence := endpoint.queue.numbered + 1 }]
          enqueued := endpoint.queue.enqueued + 1 } }) := by
  rw [submitted, Intake.Listener.submit, Queue.enqueue_eq_of_accepts h]
  rfl

/-- Both forms of a payload that is not empty, at any endpoint. -/
theorem agree {payload : Octets} {gateway : Option Hints} {raw enveloped : Call}
    (hne : payload ≠ []) (hraw : raw.IsRaw payload)
    (henveloped : enveloped.IsEnveloped payload gateway)
    (hsender : SameSender raw.header enveloped.header)
    (hsize : raw.body.length ≤ endpoint.maxBody)
    (hsize' : enveloped.body.length ≤ endpoint.maxBody) (now : Instant) :
    ∃ filled, endpoint.Agree payload gateway filled now raw enveloped := by
  have hraw_eq : endpoint.respond raw now
      = endpoint.submitted (requestOf raw.header payload (hintsOf raw.header) now) := by
    have hcontent : contentOf raw.header raw.body = .ok (payload, hintsOf raw.header) := by
      rw [contentOf_eq_ok_iff, hraw.body]
      exact ⟨hne, {}, .raw hraw.announced, rfl⟩
    rw [respond_of_isPost hraw.toIsPost hsize, upload_of_contentOf hcontent]
  -- The header of the envelope names the same client, and fills the same values.
  have henveloped_eq : endpoint.respond enveloped now = endpoint.submitted
      (requestOf raw.header payload ((gateway.getD {}).orElse (hintsOf raw.header)) now) := by
    have hcontent : contentOf enveloped.header enveloped.body
        = .ok (payload, (gateway.getD {}).orElse (hintsOf raw.header)) := by
      rw [contentOf_eq_ok_iff, hsender.hintsOf_eq]
      exact ⟨hne, _, .envelope henveloped.announced henveloped.body (Base64.trim_encode _), rfl⟩
    rw [respond_of_isPost henveloped.toIsPost hsize', upload_of_contentOf hcontent, requestOf,
      ← hsender.clientOf_eq]
    rfl
  refine ⟨(gateway.getD {}).orElse (hintsOf raw.header), ?_⟩
  refine ⟨filled_orElse _ _, hraw_eq, henveloped_eq, ?_, ?_, ?_, ?_⟩
  · rintro rfl
    rw [henveloped_eq, hraw_eq]
    rfl
  · rw [henveloped_eq, hraw_eq]
    by_cases haccepts : endpoint.queue.Accepts
    · rw [submitted_of_accepts haccepts, submitted_of_accepts haccepts]
    · rw [submitted_of_not_accepts haccepts]
  · intro hnot
    rw [henveloped_eq, hraw_eq, submitted_of_not_accepts hnot]
  · intro haccepts
    -- Only the hints differ, and the listener counts the octets of one payload.
    rw [henveloped_eq, hraw_eq, submitted_of_accepts haccepts, submitted_of_accepts haccepts]
    exact ⟨_, rfl, rfl, rfl⟩

/-- A payload of a known sender that is posted as it is and in a written envelope. The envelope
names another gateway, and leaves its place to the header. -/
theorem agree_written :
    let payload : Octets := [1, 2, 3, 4]
    let gateway : Option Hints := some { id := "roof" }
    let sender : Header := [("X-Telecast-Client", "gw-1"), ("X-Gateway-Id", "shed"),
      ("X-Gateway-Location", "garden"), ("X-Gateway-Lat", "north")]
    let endpoint : Endpoint := { queue := .new 4 }
    let raw : Call := ⟨"POST", "/", ("Content-Type", "text/plain") :: sender, payload⟩
    let enveloped : Call := ⟨"POST", "/send?v=1", ("content-type", "application/json") :: sender,
      Envelope.written ⟨Base64.encode payload, gateway⟩⟩
    ∃ filled, endpoint.Agree payload gateway filled .epoch raw enveloped := by
  intro payload gateway sender endpoint raw enveloped
  have hnumbers : Json.Lossless.numbers (Envelope.mk (Base64.encode payload) gateway) = [] := rfl
  have hread : Envelope.read? enveloped.body = some ⟨Base64.encode payload, gateway⟩ := by
    apply Envelope.read?_written
    rw [hnumbers]
    exact List.forall_mem_nil _
  have hraw : raw.IsPost := ⟨rfl, by decide +kernel⟩
  have henveloped : enveloped.IsPost := ⟨rfl, by decide +kernel⟩
  have hsender : raw.header.others = enveloped.header.others := by decide +kernel
  have hsize : enveloped.body.length ≤ endpoint.maxBody := by decide +kernel
  exact agree (List.cons_ne_nil _ _) ⟨hraw, by decide +kernel, rfl⟩
    ⟨henveloped, by decide +kernel, hread⟩ (sameSender_of_others hsender) (by decide +kernel)
    hsize .epoch

end Endpoint

end FieldTelemetry.Upload
