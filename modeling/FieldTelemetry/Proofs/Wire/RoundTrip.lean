import FieldTelemetry.Proofs.Wire.Concatenation
import FieldTelemetry.Wire.Bulk
import FieldTelemetry.Wire.Encode

/-!
# Messages survive the wire

A message is decoded from its octets as it was, whatever fields it has and whatever values they
have. A tag is never zero, so what is a message is not taken for a bulk payload.

## Main definitions

* `Message.Fits`: the texts of a message have lengths of sixty-four bits
* `Message.only`: the message with some of its fields only

## Main results

* `Message.decode_encode`: a message is decoded from its octets
* `Message.decode_fields`: so is a message from the octets of some of its fields
* `split_of_decode`: octets that are a message are split into themselves
* `message_round_trip`: all of it
-/

namespace FieldTelemetry.Wire

/-! ## Values -/

namespace Kind

/-- A text has a length of sixty-four bits. -/
def Fits : (kind : Kind) → kind.Value → Prop
  | .text, value => (Text.utf8 value).length < UInt64.size
  | _, _ => True

theorem ofFixed_fixed32 (n : UInt32) : ofFixed (fixed32 n) = n.toNat := by
  have hn : n.toNat < 2 ^ 32 := n.toNat_lt
  simp only [ofFixed, fixed32, List.foldr_cons, List.foldr_nil, UInt8.toNat_ofNat']
  omega

/-- Sixty-four bits of a signed word have the word in their low thirty-two. -/
theorem ofNat_emod_toInt (n : Int32) : Int32.ofNat (n.toInt % UInt64.size).toNat = n := by
  apply Int32.toInt_inj.mp
  have hnonneg : (0 : Int) ≤ n.toInt % UInt64.size := Int.emod_nonneg _ (by decide)
  have hdvd : (Int32.size : Int) ∣ UInt64.size := by decide
  rw [Int32.toInt_ofNat', Int.toNat_of_nonneg hnonneg, ← Int.emod_bmod,
    Int.emod_emod_of_dvd _ hdvd, Int.emod_bmod]
  exact n.toInt_bmod

/-- A value is read from its payload. -/
theorem ofPayload_payload (kind : Kind) (value : kind.Value) :
    kind.ofPayload (kind.payload value) = .ok value := by
  cases kind with
  | word => exact congrArg Except.ok UInt32.ofNat_toNat
  | signed => exact congrArg Except.ok (ofNat_emod_toInt value)
  | real =>
    have hbits : UInt32.ofNat (ofFixed (fixed32 value.bits)) = value.bits := by
      rw [ofFixed_fixed32, UInt32.ofNat_toNat]
    exact congrArg (fun bits => Except.ok (Binary32.mk bits)) hbits
  | text => rw [payload, ofPayload, Text.ofUtf8?_utf8]

/-- The octets of a payload hold it. -/
theorem isPayload_payload {kind : Kind} {value : kind.Value} (h : kind.Fits value) :
    IsPayload kind.wireType ((kind.payload value).encode kind.wireType) (kind.payload value) := by
  cases kind with
  | word => exact .varint (isVarint_varint (value.toNat_lt.trans (by decide)))
  | signed =>
    have hlt : value.toInt % UInt64.size < UInt64.size := Int.emod_lt_of_pos _ (by decide)
    have hnonneg : 0 ≤ value.toInt % UInt64.size := Int.emod_nonneg _ (by decide)
    exact .varint (isVarint_varint ((Int.toNat_lt hnonneg).mpr hlt))
  | real => exact .fixed32 rfl
  | text => exact .delimited (isVarint_varint h)

end Kind

/-- A payload behind its key is a field. -/
theorem isRecord_key {tag : Nat} {wireType : WireType} {content : Octets} {payload : Payload}
    (hpos : 0 < tag) (hsize : 8 * tag + wireType.code < UInt32.size)
    (hpayload : IsPayload wireType content payload) :
    IsRecord tag wireType (key tag wireType ++ content) payload :=
  .mk hpos hsize (isVarint_varint (hsize.trans (by decide))) hpayload

theorem Field.isRecord_encode {f : Field} {value : f.Value} (h : f.kind.Fits value) :
    IsRecord f.tag f.kind.wireType (f.encode value) (f.kind.payload value) := by
  have hkey : 0 < f.tag ∧ 8 * f.tag + f.kind.wireType.code < UInt32.size := by cases f <;> decide
  exact isRecord_key hkey.1 hkey.2 (Kind.isPayload_payload h)

/-! ## Messages -/

namespace Message

/-- All texts of a message have lengths of sixty-four bits, as all that a machine holds have. -/
def Fits (m : Message) : Prop := ∀ f value, m f = some value → f.kind.Fits value

theorem fits_empty : empty.Fits := fun _ _ h => nomatch h

theorem Fits.set {m : Message} (h : m.Fits) {f : Field} {value : f.Value}
    (hvalue : f.kind.Fits value) : (m.set f value).Fits := by
  intro g other hother
  by_cases hg : g = f
  · subst hg
    rw [Message.set, update_same] at hother
    exact Option.some.inj hother ▸ hvalue
  · rw [Message.set, update_other _ _ hg] at hother
    exact h g other hother

/-- The message with the given fields only. -/
def only (m : Message) (fields : List Field) : Message :=
  ⟨fun f => if f ∈ fields then m f else none⟩

theorem only_apply (m : Message) (fields : List Field) (f : Field) :
    m.only fields f = if f ∈ fields then m f else none := rfl

theorem only_all (m : Message) : m.only Field.all = m :=
  Message.ext (funext fun f => if_pos f.mem_all)

theorem only_singleton (m : Message) (f : Field) : m.only [f] = empty.update f (m f) := by
  apply Message.ext
  funext g
  by_cases hg : g = f
  · subst hg
    rw [only_apply, if_pos List.mem_cons_self, update_same]
  · rw [only_apply, if_neg (mt List.mem_singleton.mp hg), update_other _ _ hg]
    rfl

theorem empty_update_none (f : Field) : empty.update f none = empty := by
  apply Message.ext
  funext g
  by_cases hg : g = f
  · subst hg
    exact update_same empty g none
  · exact update_other empty none hg

theorem overlay_only (m : Message) (front back : List Field) :
    Overlay.overlay (m.only front) (m.only back) = m.only (front ++ back) := by
  apply Message.ext
  funext f
  rw [overlay_apply, only_apply, only_apply, only_apply]
  by_cases hback : f ∈ back
  · rw [if_pos hback, if_pos (List.mem_append_right front hback)]
    split
    · exact Option.or_self
    · exact Option.or_none
  · simp only [hback, if_false, Option.none_or, List.mem_append, or_false]

/-- The octets of a field, if the message has it. -/
def octetsOf (m : Message) (f : Field) : Octets :=
  match m f with
  | some value => f.encode value
  | none => []

theorem encode_eq (m : Message) : m.encode = Field.all.flatMap m.octetsOf := rfl

theorem decode_octetsOf {m : Message} (h : m.Fits) (f : Field) :
    decode (m.octetsOf f) = .ok (m.only [f]) := by
  rw [only_singleton, octetsOf]
  cases hvalue : m f with
  | none =>
    rw [empty_update_none]
    rfl
  | some value =>
    have hrecord := Field.isRecord_encode (h f value hvalue)
    exact decode_eq_ok_iff.mpr (hrecord.after_of_field (f.kind.ofPayload_payload value) empty)

/-- A message is decoded from the octets of some of its fields. -/
theorem decode_fields {m : Message} (h : m.Fits) (fields : List Field) :
    decode (fields.flatMap m.octetsOf) = .ok (m.only fields) := by
  induction fields with
  | nil => rfl
  | cons f fields ih =>
    rw [List.flatMap_cons, decode_append (decode_octetsOf h f), ih]
    exact congrArg Except.ok (overlay_only m [f] fields)

/-- A message is decoded from its octets. -/
theorem decode_encode {m : Message} (h : m.Fits) : decode m.encode = .ok m := by
  rw [encode_eq, decode_fields h, only_all]

end Message

/-- Octets that are a message are split into themselves. -/
theorem split_of_decode {octets : Octets} {m : Message} (hne : octets ≠ [])
    (h : Message.decode octets = .ok m) : split octets = .ok [octets] := by
  cases octets with
  | nil => exact absurd rfl hne
  | cons first rest =>
    have hfirst : first ≠ 0 := by
      rintro rfl
      -- The first key would have the tag zero.
      have hzero : (Decoder.start .empty).step 0 = .error ⟨none, .tag⟩ := rfl
      have hafter := Message.decode_eq_ok_iff.mp h
      rw [Decoder.after_cons, hzero] at hafter
      cases hafter
    exact if_neg hfirst

/-- A message is decoded from its octets, and neither they nor any others that are a message are
taken for a bulk payload. -/
theorem message_round_trip :
    (∀ m : Message, m.Fits → Message.decode m.encode = .ok m
      ∧ (m.encode ≠ [] → split m.encode = .ok [m.encode]))
      ∧ ∀ octets m, octets ≠ [] → Message.decode octets = .ok m → split octets = .ok [octets] := by
  refine ⟨fun m hfits => ?_, fun octets m => split_of_decode⟩
  have hdecode := Message.decode_encode hfits
  exact ⟨hdecode, fun hne => split_of_decode hne hdecode⟩

/-- An offset before zero, a temperature that is no number and a name. -/
def oddMessage : Message :=
  ((Message.empty.set .captureOffset (-1 : Int32)).set .temperature
    (⟨0x7fc00001⟩ : Binary32)).set .deviceName "é"

theorem message_round_trip_odd :
    oddMessage.Fits ∧ Message.decode oddMessage.encode = .ok oddMessage
      ∧ split oddMessage.encode = .ok [oddMessage.encode]
      ∧ split [0x10, 0x07] = .ok [[0x10, 0x07]] := by
  obtain ⟨hencoded, hsplit⟩ := message_round_trip
  have hoffset : Field.captureOffset.kind.Fits (-1 : Int32) := trivial
  have htemperature : Field.temperature.kind.Fits (⟨0x7fc00001⟩ : Binary32) := trivial
  have hname : (Text.utf8 "é").length < UInt64.size := by decide
  have hfits : oddMessage.Fits := ((Message.fits_empty.set hoffset).set htemperature).set hname
  obtain ⟨hdecode, hsingle⟩ := hencoded oddMessage hfits
  have hid : Message.decode [0x10, 0x07] = .ok (Message.empty.set .deviceId (7 : UInt32)) := rfl
  exact ⟨hfits, hdecode, hsingle (by decide), hsplit _ _ (by decide) hid⟩

end FieldTelemetry.Wire
