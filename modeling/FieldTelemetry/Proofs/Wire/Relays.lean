import FieldTelemetry.Proofs.Wire.RoundTrip
import FieldTelemetry.Wire.Checksum
import Mathlib.Logic.Relation

/-!
# Copies over other relays

On its way a message gains fields for the relays that it went through, and relays of a newer schema
may add fields that this one does not know. Neither changes what the message says nor its checksum.
What is checked says all the rest, so that two messages which differ in anything else have the same
checksum only where the check itself collides.

## Main definitions

* `IsLoose`: octets are a field for a relay or one that is not in the schema
* `Reroute`: octets gain, lose or change such a field in front of some field or at the end
* `Message.SameReading`: two messages differ in their relays only
* `Collide`: different octets have the same check

## Main results

* `Reroute.decode`, `decode_of_reroutes`: a message survives changes of its way
* `Message.encode_withoutRelays_eq_iff`: what is checked says all but the relays
* `relay_invariance`: all of it
-/

namespace FieldTelemetry.Wire

/-! ## Messages that differ in their relays -/

namespace Message

/-- Two messages have the same value in every field that names no relay. -/
def SameReading (m n : Message) : Prop := ∀ f : Field, ¬ f.IsRelay → m f = n f

namespace SameReading

variable {l m n : Message}

theorem refl (m : Message) : m.SameReading m := fun _ _ => rfl

theorem symm (h : m.SameReading n) : n.SameReading m := fun f hf => (h f hf).symm

theorem trans (h : l.SameReading m) (h' : m.SameReading n) : l.SameReading n :=
  fun f hf => (h f hf).trans (h' f hf)

theorem overlay {m' n' : Message} (h : m.SameReading m') (h' : n.SameReading n') :
    (Overlay.overlay m n).SameReading (Overlay.overlay m' n') := by
  intro f hf
  rw [overlay_apply, overlay_apply, h f hf, h' f hf]

theorem set_relay {f : Field} (hf : f.IsRelay) (m : Message) (value : f.Value) :
    (m.set f value).SameReading m := by
  intro g hg
  refine update_other m _ ?_
  rintro rfl
  exact hg hf

end SameReading

theorem withoutRelays_apply (m : Message) (f : Field) :
    m.withoutRelays f = if f.IsRelay then none else m f := rfl

theorem withoutRelays_eq_iff {m n : Message} :
    m.withoutRelays = n.withoutRelays ↔ m.SameReading n := by
  constructor
  · intro h f hf
    have hfield : m.withoutRelays f = n.withoutRelays f := by rw [h]
    rwa [withoutRelays_apply, withoutRelays_apply, if_neg hf, if_neg hf] at hfield
  · intro h
    apply Message.ext
    funext f
    rw [withoutRelays_apply, withoutRelays_apply]
    split
    · rfl
    · rename_i hf
      exact h f hf

theorem Fits.withoutRelays {m : Message} (h : m.Fits) : m.withoutRelays.Fits := by
  intro f value hvalue
  rw [withoutRelays_apply] at hvalue
  split at hvalue
  · cases hvalue
  · exact h f value hvalue

theorem encode_injective {m n : Message} (hm : m.Fits) (hn : n.Fits) (h : m.encode = n.encode) :
    m = n := by
  have hdecode := decode_encode hm
  rw [h, decode_encode hn] at hdecode
  exact (Except.ok.inj hdecode).symm

/-- What is checked says all but the relays. -/
theorem encode_withoutRelays_eq_iff {m n : Message} (hm : m.Fits) (hn : n.Fits) :
    m.withoutRelays.encode = n.withoutRelays.encode ↔ m.SameReading n := by
  rw [← withoutRelays_eq_iff]
  constructor
  · exact encode_injective hm.withoutRelays hn.withoutRelays
  · exact congrArg encode

theorem SameReading.checksum_eq {m n : Message} (h : m.SameReading n) :
    m.checksum = n.checksum := by
  rw [checksum, checksum, withoutRelays_eq_iff.mpr h]

end Message

/-! ## Fields that say nothing -/

/-- Octets are one field that names a relay or is not in the schema. -/
inductive IsLoose : Octets → Prop
  /-- A relay. -/
  | relay {tag : Nat} {octets : Octets} {payload : Payload} (htag : 70 ≤ tag ∧ tag ≤ 74)
    (h : IsRecord tag .varint octets payload) : IsLoose octets
  /-- A field that is not in the schema. -/
  | unknown {tag : Nat} {wireType : WireType} {octets : Octets} {payload : Payload}
    (htag : Field.ofTag? tag = none) (h : IsRecord tag wireType octets payload) : IsLoose octets

theorem exists_relay_of_tag {tag : Nat} (h : 70 ≤ tag ∧ tag ≤ 74) :
    ∃ f : Field, f.IsRelay ∧ f.kind.wireType = .varint ∧ f.tag = tag := by
  obtain rfl | rfl | rfl | rfl | rfl : tag = 70 ∨ tag = 71 ∨ tag = 72 ∨ tag = 73 ∨ tag = 74 := by
    omega
  · exact ⟨.relay1, by decide, rfl, rfl⟩
  · exact ⟨.relay2, by decide, rfl, rfl⟩
  · exact ⟨.relay3, by decide, rfl, rfl⟩
  · exact ⟨.relay4, by decide, rfl, rfl⟩
  · exact ⟨.relay5, by decide, rfl, rfl⟩

theorem IsRecord.exists_integer {tag : Nat} {octets : Octets} {payload : Payload}
    (h : IsRecord tag .varint octets payload) : ∃ n, payload = .integer n := by
  obtain ⟨-, -, -, hpayload⟩ := h
  cases hpayload
  exact ⟨_, rfl⟩

/-- Every integer is a value of a field that is written as one. -/
theorem Kind.exists_ofPayload {kind : Kind} (h : kind.wireType = .varint) (n : Nat) :
    ∃ value, kind.ofPayload (.integer n) = .ok value := by
  cases kind with
  | word => exact ⟨_, rfl⟩
  | signed => exact ⟨_, rfl⟩
  | real => cases h
  | text => cases h

/-- A loose field is a message that says nothing. -/
theorem IsLoose.decode {octets : Octets} (h : IsLoose octets) :
    ∃ m, Message.decode octets = .ok m ∧ m.SameReading .empty := by
  cases h with
  | relay htag h =>
    obtain ⟨f, hrelay, hwireType, rfl⟩ := exists_relay_of_tag htag
    obtain ⟨n, rfl⟩ := h.exists_integer
    obtain ⟨value, hvalue⟩ := Kind.exists_ofPayload hwireType n
    rw [← hwireType] at h
    exact ⟨_, Message.decode_eq_ok_iff.mpr (h.after_of_field hvalue .empty), .set_relay hrelay _ _⟩
  | unknown htag h =>
    exact ⟨_, Message.decode_eq_ok_iff.mpr (h.after_of_unknown htag .empty), .refl _⟩

/-! ## Changes of the way -/

/-- Octets gain, lose or change one loose field, in front of some field or at the end. -/
inductive Reroute : Octets → Octets → Prop
  /-- A loose field more. -/
  | insert {front octets back : Octets} {m : Message} (hfront : Message.decode front = .ok m)
    (h : IsLoose octets) : Reroute (front ++ back) (front ++ octets ++ back)
  /-- A loose field less. -/
  | remove {front octets back : Octets} {m : Message} (hfront : Message.decode front = .ok m)
    (h : IsLoose octets) : Reroute (front ++ octets ++ back) (front ++ back)
  /-- Another loose field. -/
  | change {front octets octets' back : Octets} {m : Message}
    (hfront : Message.decode front = .ok m) (h : IsLoose octets) (h' : IsLoose octets') :
    Reroute (front ++ octets ++ back) (front ++ octets' ++ back)

/-- A part of a message may stand for another with the same reading. -/
theorem decode_replace {front octets octets' back : Octets} {l x x' m : Message}
    (hfront : Message.decode front = .ok l) (hx : Message.decode octets = .ok x)
    (hx' : Message.decode octets' = .ok x') (hsame : x'.SameReading x)
    (h : Message.decode (front ++ octets ++ back) = .ok m) :
    ∃ m', Message.decode (front ++ octets' ++ back) = .ok m' ∧ m'.SameReading m := by
  rw [List.append_assoc, Message.decode_append hfront, Message.decode_append hx] at h
  rw [List.append_assoc, Message.decode_append hfront, Message.decode_append hx']
  cases hback : Message.decode back with
  | error e =>
    rw [hback] at h
    cases h
  | ok y =>
    rw [hback] at h
    cases h
    exact ⟨_, rfl, .overlay (.refl l) (.overlay hsame (.refl y))⟩

/-- A message survives a change of its way. -/
theorem Reroute.decode {octets octets' : Octets} (h : Reroute octets octets') {m : Message}
    (hdecode : Message.decode octets = .ok m) :
    ∃ m', Message.decode octets' = .ok m' ∧ m'.SameReading m := by
  have hnil : Message.decode [] = .ok .empty := rfl
  cases h with
  | @insert front _ _ _ hfront h =>
    obtain ⟨x, hx, hempty⟩ := h.decode
    rw [← List.append_nil front] at hdecode
    exact decode_replace hfront hnil hx hempty hdecode
  | @remove front _ back _ hfront h =>
    obtain ⟨x, hx, hempty⟩ := h.decode
    have hrest := decode_replace hfront hx hnil hempty.symm hdecode
    rwa [List.append_nil] at hrest
  | change hfront h h' =>
    obtain ⟨x, hx, hempty⟩ := h.decode
    obtain ⟨x', hx', hempty'⟩ := h'.decode
    exact decode_replace hfront hx hx' (hempty'.trans hempty.symm) hdecode

/-- A message survives all changes of its way. -/
theorem decode_of_reroutes {octets octets' : Octets}
    (h : Relation.ReflTransGen Reroute octets octets') {m : Message}
    (hdecode : Message.decode octets = .ok m) :
    ∃ m', Message.decode octets' = .ok m' ∧ m'.SameReading m := by
  induction h with
  | refl => exact ⟨m, hdecode, .refl m⟩
  | tail _ hlast ih =>
    obtain ⟨m', hdecode', hsame⟩ := ih
    obtain ⟨m'', hdecode'', hsame'⟩ := hlast.decode hdecode'
    exact ⟨m'', hdecode'', hsame'.trans hsame⟩

/-! ## All of it -/

/-- Different octets have the same check. -/
def Collide (octets octets' : Octets) : Prop := octets ≠ octets' ∧ crc32 octets = crc32 octets'

/-- Changes of its way leave a message what it says and its checksum. What is checked says all but
the relays, and messages that say different things have the same checksum only where the check
collides. -/
theorem relay_invariance :
    (∀ octets octets' m, Message.decode octets = .ok m →
      Relation.ReflTransGen Reroute octets octets' →
      ∃ m', Message.decode octets' = .ok m' ∧ m'.SameReading m ∧ m'.checksum = m.checksum)
      ∧ ∀ m n : Message, m.Fits → n.Fits →
        (m.withoutRelays.encode = n.withoutRelays.encode ↔ m.SameReading n)
          ∧ (m.checksum = n.checksum →
            m.SameReading n ∨ Collide m.withoutRelays.encode n.withoutRelays.encode) := by
  constructor
  · intro octets octets' m hdecode hreroutes
    obtain ⟨m', hdecode', hsame⟩ := decode_of_reroutes hreroutes hdecode
    exact ⟨m', hdecode', hsame, hsame.checksum_eq⟩
  · intro m n hm hn
    have hiff := Message.encode_withoutRelays_eq_iff hm hn
    refine ⟨hiff, fun hchecksum => ?_⟩
    by_cases hsame : m.SameReading n
    · exact .inl hsame
    · exact .inr ⟨mt hiff.mp hsame, hchecksum⟩

/-- A message with a number for its device. -/
def sevenMessage : Message := Message.empty.set .deviceId (7 : UInt32)

/-- It gains a relay in front and a field that is not in the schema behind. -/
theorem relay_invariance_seven :
    Message.decode [0x10, 0x07] = .ok sevenMessage
      ∧ Relation.ReflTransGen Reroute [0x10, 0x07] [0xb0, 0x04, 0x05, 0x10, 0x07, 0xa0, 0x06, 0x01]
      ∧ (∃ m, Message.decode [0xb0, 0x04, 0x05, 0x10, 0x07, 0xa0, 0x06, 0x01] = .ok m
        ∧ m.SameReading sevenMessage ∧ m.checksum = sevenMessage.checksum)
      ∧ (sevenMessage.Fits ∧ (sevenMessage.set .relay1 (5 : UInt32)).Fits)
      ∧ (sevenMessage.withoutRelays.encode
          = (sevenMessage.set .relay1 (5 : UInt32)).withoutRelays.encode
        ↔ sevenMessage.SameReading (sevenMessage.set .relay1 (5 : UInt32))) := by
  obtain ⟨hreroutes, hmessages⟩ := relay_invariance
  have hdecode : Message.decode [0x10, 0x07] = .ok sevenMessage := rfl
  have hfive : IsPayload .varint (varint 5) (.integer 5) := .varint (isVarint_varint (by decide))
  have hone : IsPayload .varint (varint 1) (.integer 1) := .varint (isVarint_varint (by decide))
  have hrelay : IsRecord 70 .varint [0xb0, 0x04, 0x05] (.integer 5) :=
    isRecord_key (by decide) (by decide) hfive
  have hunknown : IsRecord 100 .varint [0xa0, 0x06, 0x01] (.integer 1) :=
    isRecord_key (by decide) (by decide) hone
  have hfirst : Reroute ([] ++ [0x10, 0x07]) ([] ++ [0xb0, 0x04, 0x05] ++ [0x10, 0x07]) :=
    .insert rfl (.relay (by decide) hrelay)
  have hsecond : Reroute ([0xb0, 0x04, 0x05, 0x10, 0x07] ++ [])
      ([0xb0, 0x04, 0x05, 0x10, 0x07] ++ [0xa0, 0x06, 0x01] ++ []) :=
    .insert rfl (.unknown (by decide) hunknown)
  have hboth := (Relation.ReflTransGen.single hfirst).tail hsecond
  have hid : Field.deviceId.kind.Fits (7 : UInt32) := trivial
  have hhop : Field.relay1.kind.Fits (5 : UInt32) := trivial
  have hseven : sevenMessage.Fits := Message.fits_empty.set hid
  have hrelayed := hseven.set hhop
  obtain ⟨hiff, -⟩ := hmessages _ _ hseven hrelayed
  exact ⟨hdecode, hboth, hreroutes _ _ _ hdecode hboth, ⟨hseven, hrelayed⟩, hiff⟩

end FieldTelemetry.Wire
