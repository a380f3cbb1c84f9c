import FieldTelemetry.Proofs.Except
import FieldTelemetry.Proofs.Wire.Varint

/-!
# Fields on the wire

A field on the wire is the key of its tag and its wire type, in any groups that make it up, and a
payload with that wire type. The automaton of messages reads such a field as one: it sets the value
of a field of the schema, and leaves the message as it is for any other.

## Main definitions

* `IsPayload`: octets hold a payload with a wire type
* `IsRecord`: octets are a field with a tag and a wire type that holds a payload
* `Decoder.after`: the automaton behind octets

## Main results

* `IsRecord.after_of_field`, `IsRecord.after_of_unknown`: the automaton behind a field
-/

namespace FieldTelemetry.Wire

/-- Octets hold a payload with a wire type. A group holds none. -/
inductive IsPayload : WireType → Octets → Payload → Prop
  /-- An integer of sixty-four bits. -/
  | varint {octets : Octets} {n : Nat} (h : IsVarint octets n) :
    IsPayload .varint octets (.integer n)
  /-- Eight octets. -/
  | fixed64 {octets : Octets} (h : octets.length = 8) : IsPayload .fixed64 octets (.octets octets)
  /-- A length and as many octets. -/
  | delimited {length content : Octets} (h : IsVarint length content.length) :
    IsPayload .delimited (length ++ content) (.octets content)
  /-- Four octets. -/
  | fixed32 {octets : Octets} (h : octets.length = 4) : IsPayload .fixed32 octets (.octets octets)

/-- Octets are a field with a tag and a wire type that holds a payload. -/
inductive IsRecord : (tag : Nat) → WireType → Octets → Payload → Prop
  /-- A key of thirty-two bits and a payload. -/
  | mk {tag : Nat} {wireType : WireType} {key content : Octets} {payload : Payload} (hpos : 0 < tag)
    (hsize : 8 * tag + wireType.code < UInt32.size)
    (hkey : IsVarint key (8 * tag + wireType.code))
    (hpayload : IsPayload wireType content payload) :
    IsRecord tag wireType (key ++ content) payload

/-! ## Payloads -/

namespace OpenPayload

theorem reads_integer {v : OpenVarint} {octets : Octets} {n : Nat}
    (h : Reads OpenVarint.step v octets n) : Reads step (.integer v) octets (.integer n) := by
  induction h with
  | last h => exact .last (by rw [step, h]; rfl)
  | more h _ ih => exact .more (by rw [step, h]; rfl) ih

/-- Octets of a known number are read one by one. -/
theorem reads_octets {octets : Octets} (hne : octets ≠ []) (found : Octets) :
    Reads step (.octets found octets.length) octets (.octets (found.reverse ++ octets)) := by
  induction octets generalizing found with
  | nil => exact absurd rfl hne
  | cons b octets ih =>
    cases octets with
    | nil =>
      rw [← List.reverse_cons]
      exact .last rfl
    | cons c octets =>
      have hrest := ih (List.cons_ne_nil _ _) (b :: found)
      rw [List.reverse_cons, List.append_assoc, List.singleton_append] at hrest
      exact .more rfl hrest

theorem reads_fixed {n : Nat} {octets : Octets} (h : octets.length = n + 1) :
    Reads step (.octets [] (n + 1)) octets (.octets octets) := by
  have hreads := reads_octets (List.ne_nil_of_length_eq_add_one h) []
  rwa [h] at hreads

theorem reads_length_zero {v : OpenVarint} {octets : Octets}
    (h : Reads OpenVarint.step v octets 0) : Reads step (.length v) octets (.octets []) := by
  generalize hn : 0 = n at h
  induction h with
  | last h => exact .last (by rw [step, h, ← hn]; rfl)
  | more h _ ih => exact .more (by rw [step, h]; rfl) (ih hn)

/-- The length comes before the octets. -/
theorem reads_length {v : OpenVarint} {length content : Octets} (hne : content ≠ [])
    (h : Reads OpenVarint.step v length content.length) :
    Reads step (.length v) (length ++ content) (.octets content) := by
  obtain ⟨n, hn⟩ := Nat.exists_eq_succ_of_ne_zero (mt List.length_eq_zero_iff.mp hne)
  have hcontent := reads_fixed hn
  rw [hn] at h
  generalize hsucc : n.succ = size at h
  induction h with
  | last h => exact .more (by rw [step, h, ← hsucc]; rfl) hcontent
  | more h _ ih => exact .more (by rw [step, h]; rfl) (ih hsucc)

end OpenPayload

/-- A payload is read from its octets. -/
theorem IsPayload.reads {wireType : WireType} {octets : Octets} {payload : Payload}
    (h : IsPayload wireType octets payload) : ∃ p, OpenPayload.start? wireType = some p
      ∧ Reads OpenPayload.step p octets payload := by
  cases h with
  | varint h => exact ⟨_, rfl, OpenPayload.reads_integer h.reads⟩
  | fixed64 h => exact ⟨_, rfl, OpenPayload.reads_fixed h⟩
  | fixed32 h => exact ⟨_, rfl, OpenPayload.reads_fixed h⟩
  | @delimited length content h =>
    refine ⟨_, rfl, ?_⟩
    cases content with
    | nil =>
      rw [List.append_nil]
      exact OpenPayload.reads_length_zero h.reads
    | cons b content => exact OpenPayload.reads_length (List.cons_ne_nil _ _) h.reads

/-! ## Runs of the automaton -/

namespace Decoder

/-- The automaton behind octets. -/
def after (d : Decoder) (octets : Octets) : Except DecodeError Decoder := octets.foldlM step d

theorem after_cons (d : Decoder) (b : UInt8) (octets : Octets) :
    d.after (b :: octets) = d.step b >>= fun d => d.after octets := rfl

theorem after_append (d : Decoder) (front back : Octets) :
    d.after (front ++ back) = d.after front >>= fun d => d.after back := by
  simp only [after, List.foldlM_append]

theorem after_singleton (d : Decoder) (b : UInt8) : d.after [b] = d.step b :=
  bind_pure (d.step b)

variable (m : Message) (b : UInt8)

/-! ### Equations of a step -/

theorem step_key (v : OpenVarint) : step ⟨m, .key v⟩ b
    = (v.step b).mapError (⟨none, ·⟩) >>= fun r => match r with
      | .inl v => .ok ⟨m, .key v⟩
      | .inr n => splitKey n >>= fun key => field m key.1 key.2 := rfl

theorem step_value (f : Field) (p : OpenPayload) : step ⟨m, .value f p⟩ b
    = (p.step b).mapError (⟨some f, ·⟩) >>= fun r => match r with
      | .inl p => .ok ⟨m, .value f p⟩
      | .inr payload => (f.kind.ofPayload payload).mapError (⟨some f, ·⟩) >>= fun value =>
          .ok (start (m.set f value)) := rfl

theorem step_skippedKey (groups : List Nat) (v : OpenVarint) : step ⟨m, .skippedKey groups v⟩ b
    = (v.step b).mapError (⟨none, ·⟩) >>= fun r => match r with
      | .inl v => .ok ⟨m, .skippedKey groups v⟩
      | .inr n => splitKey n >>= fun key => skippedField m groups key.1 key.2 := rfl

theorem step_skippedValue (groups : List Nat) (p : OpenPayload) :
    step ⟨m, .skippedValue groups p⟩ b
      = (p.step b).mapError (⟨none, ·⟩) >>= fun r => match r with
        | .inl p => .ok ⟨m, .skippedValue groups p⟩
        | .inr _ => .ok (skipped m groups) := rfl

/-! ### Keys and payloads -/

/-- A key is split into tag and wire type. -/
theorem after_key {v : OpenVarint} {octets : Octets} {n : Nat}
    (h : Reads OpenVarint.step v octets n) : after ⟨m, .key v⟩ octets
      = splitKey n >>= fun key => field m key.1 key.2 := by
  induction h with
  | last h =>
    rw [after_singleton, step_key, h]
    rfl
  | more h _ ih =>
    rw [after_cons, step_key, h]
    exact ih

/-- A payload of a field of the schema sets its value. -/
theorem after_value (f : Field) {p : OpenPayload} {octets : Octets} {payload : Payload}
    (h : Reads OpenPayload.step p octets payload) {value : f.Value}
    (hvalue : f.kind.ofPayload payload = .ok value) :
    after ⟨m, .value f p⟩ octets = .ok (start (m.set f value)) := by
  induction h with
  | last h =>
    rw [after_singleton, step_value, h]
    simp only [Except.mapError, ok_bind, hvalue]
  | more h _ ih =>
    rw [after_cons, step_value, h]
    exact ih hvalue

/-- Any other payload is skipped. -/
theorem after_skippedValue (groups : List Nat) {p : OpenPayload} {octets : Octets}
    {payload : Payload} (h : Reads OpenPayload.step p octets payload) :
    after ⟨m, .skippedValue groups p⟩ octets = .ok (skipped m groups) := by
  induction h with
  | last h =>
    rw [after_singleton, step_skippedValue, h]
    rfl
  | more h _ ih =>
    rw [after_cons, step_skippedValue, h]
    exact ih

theorem splitKey_eq_ok {tag : Nat} {wireType : WireType} (hpos : 0 < tag)
    (hsize : 8 * tag + wireType.code < UInt32.size) :
    splitKey (8 * tag + wireType.code) = .ok (tag, wireType) := by
  have hcode : wireType.code < 8 := by cases wireType <;> decide
  have hwireType : WireType.ofCode? wireType.code = some wireType := by cases wireType <;> rfl
  have hmod : (8 * tag + wireType.code) % 8 = wireType.code := by omega
  have hdiv : (8 * tag + wireType.code) / 8 = tag := by omega
  rw [splitKey, if_neg (Nat.not_le.mpr hsize), hmod, hwireType, hdiv]
  exact if_neg hpos.ne'

end Decoder

/-! ## Fields -/

namespace IsRecord

open Decoder

variable {tag : Nat} {wireType : WireType} {octets : Octets} {payload : Payload}

theorem ne_nil (h : IsRecord tag wireType octets payload) : octets ≠ [] := by
  obtain ⟨-, -, hkey, -⟩ := h
  exact List.append_ne_nil_of_left_ne_nil hkey.ne_nil _

/-- A field of the schema is set. -/
theorem after_of_field {f : Field} (h : IsRecord f.tag f.kind.wireType octets payload)
    {value : f.Value} (hvalue : f.kind.ofPayload payload = .ok value) (m : Message) :
    (start m).after octets = .ok (start (m.set f value)) := by
  obtain ⟨hpos, hsize, hkey, hpayload⟩ := h
  obtain ⟨p, hstart, hreads⟩ := hpayload.reads
  have hfield : Field.ofTag? f.tag = some f := by cases f <;> rfl
  have hopen : field m f.tag f.kind.wireType = .ok ⟨m, .value f p⟩ := by
    rw [field, hfield]
    simp only [ne_eq, not_true_eq_false, if_false, hstart]
  have hkey' := after_key m hkey.reads
  rw [splitKey_eq_ok hpos hsize, ok_bind, hopen] at hkey'
  rw [after_append, start, hkey', ok_bind, after_value m f hreads hvalue]

/-- A field that is not in the schema is skipped. -/
theorem after_of_unknown (h : IsRecord tag wireType octets payload)
    (hunknown : Field.ofTag? tag = none) (m : Message) :
    (start m).after octets = .ok (start m) := by
  obtain ⟨hpos, hsize, hkey, hpayload⟩ := h
  obtain ⟨p, hstart, hreads⟩ := hpayload.reads
  have hopen : field m tag wireType = .ok ⟨m, .skippedValue [] p⟩ := by
    rw [field, hunknown]
    cases hpayload <;> cases hstart <;> rfl
  have hkey' := after_key m hkey.reads
  rw [splitKey_eq_ok hpos hsize, ok_bind, hopen] at hkey'
  rw [after_append, start, hkey', ok_bind, after_skippedValue m [] hreads]
  rfl

end IsRecord

end FieldTelemetry.Wire
