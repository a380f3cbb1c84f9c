import FieldTelemetry.Proofs.Except
import FieldTelemetry.Proofs.Json.Record
import FieldTelemetry.Proofs.Net.Base64
import FieldTelemetry.Upload.Endpoint

/-!
# What uploads carry

An upload carries its body, or what an envelope in its body holds. What it does not say about the
gateway is taken from its header, one value at a time.

## Main definitions

* `Envelope.read?`, `Envelope.written`: the envelope in a body, and a body with an envelope
* `Carries`: the payload of an upload, and what its body says about the gateway
* `Filled`: what is known about the gateway when its header is read, too
* `requestOf`, `Endpoint.submitted`: the request that is made of an upload

## Main results

* `Carries.unique`: an upload carries one payload
* `contentOf_eq_ok_iff`: an upload has content exactly when it carries a payload that is not empty
* `exists_contentOf_error_iff`: an upload that carries no such payload is told why
* `Envelope.read?_written`: an envelope is read back from its text
-/

namespace FieldTelemetry

open Json (KeptSlot Lossless keptSlot_int32 keptSlot_record keptSlot_single keptSlot_text kept_text
  required?_some)
open Json.Lossless (numbers optionNumbers)
open Net (Base64.encode Base64.decode Base64.decode_eq_ok_iff Base64.trim_encode)

/-! ## Envelopes -/

instance : Lossless Intake.Hints where
  numbers x := [x.lat, x.lon, x.snr].reduceOption
  Complete _ := True
  height := 0
  nodup := by decide
  length_values _ := rfl
  fits x h _ value hvalue := by
    have hall : List.Forall (Json.Fits 0) (Json.Record.values x) :=
      ⟨(keptSlot_text _).fits le_rfl, (keptSlot_single h (by simp)).fits le_rfl,
        (keptSlot_single h (by simp)).fits le_rfl, (keptSlot_int32 _).fits le_rfl,
        (keptSlot_single h (by simp)).fits le_rfl, (keptSlot_text _).fits le_rfl⟩
    exact List.forall_iff_forall_mem.mp hall value hvalue
  ofValues?_values x h _ := by
    simp only [Json.Record.values, Json.Record.ofValues?,
      (keptSlot_single h (x := x.lat) (by simp)).optional?,
      (keptSlot_single h (x := x.lon) (by simp)).optional?, (keptSlot_int32 _).optional?,
      (keptSlot_single h (x := x.snr) (by simp)).optional?, (keptSlot_text _).optional?]
    rfl
  complete_of_ofValues? _ _ _ := trivial

namespace Upload

/-- Nothing about the gateway is written as null. -/
theorem keptSlot_gateway {gateway : Option Intake.Hints}
    (h : ∀ n ∈ optionNumbers gateway, n.Survives) :
    Json.optional? Json.record? (some (gateway.elim .null Json.ofRecord)) = some gateway
      ∧ Json.Fits 1 (some (gateway.elim .null Json.ofRecord)) := by
  cases gateway with
  | none =>
    refine ⟨rfl, ?_⟩
    rintro json ⟨⟩
    exact ⟨trivial, fun _ _ => by simp [Json.plain]⟩
  | some hints =>
    have hkept := keptSlot_record h fun _ _ => trivial
    exact ⟨hkept.optional?, hkept.fits le_rfl⟩

instance : Lossless Envelope where
  numbers x := optionNumbers x.gateway
  Complete _ := True
  height := 1
  nodup := by decide
  length_values _ := rfl
  fits x h _ value hvalue := by
    have hall : List.Forall (Json.Fits 1) (Json.Record.values x) :=
      ⟨(kept_text _).fits zero_le_one, (keptSlot_gateway h).2⟩
    exact List.forall_iff_forall_mem.mp hall value hvalue
  ofValues?_values x h _ := by
    simp only [Json.Record.values, Json.Record.ofValues?, required?_some (kept_text _),
      (keptSlot_gateway h).1]
    rfl
  complete_of_ofValues? _ _ _ := trivial

/-- The envelope in a body. -/
def Envelope.read? (body : Octets) : Option Envelope := (Json.parse? body).bind Json.record?

/-- A body with an envelope. -/
def Envelope.written (envelope : Envelope) : Octets := Text.utf8 (Json.ofRecord envelope).compact

/-- An envelope is read back when its numbers survive. -/
theorem Envelope.read?_written {envelope : Envelope}
    (h : ∀ n ∈ numbers envelope, n.Survives) : Envelope.read? envelope.written = some envelope := by
  have hkept := Json.kept_record h trivial
  rw [Envelope.read?, Envelope.written, Json.parse?_compact hkept.proper]
  exact hkept.read_write

/-! ## Content -/

open Intake (Hints Request)
open Time (Instant)

/-- The payload of an upload, and what its body says about the gateway. -/
inductive Carries (header : Header) (body : Octets) : Octets → Hints → Prop
  /-- The body is the payload. -/
  | raw (h : isEnvelope header = false) : Carries header body body {}
  /-- The body is an envelope that holds the payload, maybe with blanks around it. -/
  | envelope {envelope : Envelope} {payload : Octets} (h : isEnvelope header = true)
    (hread : Envelope.read? body = some envelope)
    (htext : Text.trim envelope.payload = Base64.encode payload) :
    Carries header body payload (envelope.gateway.getD {})

/-- What an upload holds, before anybody asks whether it is empty. -/
def held (header : Header) (body : Octets) : Except UploadError (Octets × Hints) :=
  if isEnvelope header then Envelope.unpack body else .ok (body, {})

/-- What an envelope says about the gateway, filled from the header. -/
structure Filled (own others filled : Hints) : Prop where
  /-- The identifier of the gateway, the own one first. -/
  id : filled.id = own.id.or others.id
  /-- Its latitude. -/
  lat : filled.lat = own.lat.or others.lat
  /-- Its longitude. -/
  lon : filled.lon = own.lon.or others.lon
  /-- Its altitude. -/
  alt : filled.alt = own.alt.or others.alt
  /-- The ratio of signal to noise. -/
  snr : filled.snr = own.snr.or others.snr
  /-- The name of its place. -/
  location : filled.location = own.location.or others.location

theorem filled_orElse (own others : Hints) : Filled own others (own.orElse others) :=
  ⟨rfl, rfl, rfl, rfl, rfl, rfl⟩

/-- The request of an upload with a payload. -/
def requestOf (header : Header) (payload : Octets) (hints : Hints) (now : Instant) : Request :=
  { payload
    transport := (Intake.Transport.upload (clientOf header)).label
    receivedAt := now
    hints }

/-- The answer to an upload that makes a request, and the endpoint after it. -/
def Endpoint.submitted (endpoint : Endpoint) (request : Request) : Option Answer × Endpoint :=
  let (result, listener, queue) := endpoint.listener.submit endpoint.queue request
  (result.map answerTo, { endpoint with listener, queue })

variable {header : Header} {body payload : Octets} {own hints : Hints}

theorem contentOf_eq : contentOf header body = held header body >>= fun content =>
    if content.1 = [] then .error .empty
    else .ok (content.1, content.2.orElse (hintsOf header)) := by
  rw [contentOf, held]
  split <;> rfl

theorem unpack_eq_ok_iff : Envelope.unpack body = .ok (payload, own)
    ↔ ∃ envelope, Envelope.read? body = some envelope
      ∧ Text.trim envelope.payload = Base64.encode payload ∧ own = envelope.gateway.getD {} := by
  rw [Envelope.unpack, ← Envelope.read?]
  cases Envelope.read? body with
  | none => simp
  | some envelope =>
    simp only [Option.some.injEq, exists_eq_left']
    -- The text without blanks is read as the payload only when it is the text of the payload.
    rw [← Text.utf8_inj, ← Base64.decode_eq_ok_iff]
    cases Base64.decode (Text.utf8 (Text.trim envelope.payload)) with
    | error error => simp
    | ok payload' => simp [eq_comm]

theorem carries_iff : Carries header body payload own ↔ held header body = .ok (payload, own) := by
  rw [held]
  constructor
  · rintro (hraw | ⟨henvelope, hread, htext⟩)
    · rw [hraw]
      rfl
    · rw [if_pos henvelope, unpack_eq_ok_iff]
      exact ⟨_, hread, htext, rfl⟩
  · intro h
    split at h
    · rename_i henvelope
      obtain ⟨envelope, hread, htext, rfl⟩ := unpack_eq_ok_iff.mp h
      exact .envelope henvelope hread htext
    · rename_i hraw
      cases h
      exact .raw (Bool.eq_false_iff.mpr hraw)

/-- An upload carries one payload, and says one thing about the gateway. -/
theorem Carries.unique {payload' : Octets} {own' : Hints} (h : Carries header body payload own)
    (h' : Carries header body payload' own') : payload' = payload ∧ own' = own := by
  rw [carries_iff] at h h'
  rw [h] at h'
  cases h'
  exact ⟨rfl, rfl⟩

/-- An upload has content exactly when it carries a payload that is not empty. -/
theorem contentOf_eq_ok_iff : contentOf header body = .ok (payload, hints)
    ↔ payload ≠ []
      ∧ ∃ own, Carries header body payload own ∧ hints = own.orElse (hintsOf header) := by
  rw [contentOf_eq, bind_eq_ok]
  simp only [Prod.exists, carries_iff]
  constructor
  · rintro ⟨payload', own, hheld, h⟩
    split at h
    · cases h
    · rename_i hne
      cases h
      exact ⟨hne, own, hheld, rfl⟩
  · rintro ⟨hne, own, hheld, rfl⟩
    exact ⟨payload, own, hheld, if_neg hne⟩

/-- An upload has no content exactly when nothing can be decoded or the payload is empty. -/
theorem exists_contentOf_error_iff : (∃ error, contentOf header body = .error error)
    ↔ (∀ payload own, ¬ Carries header body payload own) ∨ ∃ own, Carries header body [] own := by
  simp only [contentOf_eq, carries_iff]
  cases held header body with
  | error error => exact iff_of_true ⟨error, rfl⟩ (.inl nofun)
  | ok content =>
    obtain ⟨payload, own⟩ := content
    rw [ok_bind]
    by_cases hempty : payload = []
    · subst hempty
      exact iff_of_true ⟨.empty, if_pos rfl⟩ (.inr ⟨own, rfl⟩)
    · rw [if_neg hempty]
      refine iff_of_false nofun ?_
      rintro (hnone | ⟨own', hheld⟩)
      · exact hnone payload own rfl
      · cases hheld
        exact hempty rfl

/-- An upload with content makes its request. -/
theorem Endpoint.upload_of_contentOf {endpoint : Endpoint} {now : Instant}
    (h : contentOf header body = .ok (payload, hints)) :
    endpoint.upload header body now = endpoint.submitted (requestOf header payload hints now) := by
  rw [upload, h]
  rfl

end Upload

end FieldTelemetry
