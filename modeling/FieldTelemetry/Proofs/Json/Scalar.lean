import FieldTelemetry.Json.Record
import FieldTelemetry.Proofs.Json.RoundTrip
import FieldTelemetry.Proofs.Number.Shortest
import FieldTelemetry.Proofs.Time.Timestamp

/-!
# Single values read back

Words, texts and instants are read back from the JSON values that are written for them. A number of
the single format has a proper numeral whenever it is finite, but it is read back only when the
digits of the numeral lead back to it.

## Main definitions

* `Binary32.Survives`: the numbers that are read back from their JSON texts
* `Kept`: a value that is read back from what is written for it

## Main results

* `Binary32.survives_iff`: the text of a number is read as its numeral is
* `kept_uint32`, `kept_text`, `kept_instant`, `kept_single`: values that are kept
* `optional?_map`: an optional value is read back from its slot
-/

namespace FieldTelemetry.Json

open Binary Text

/-! ## Numerals of numbers -/

/-- A decimal that begins with a digit other than zero is laid out as a proper numeral. -/
theorem Numeral.proper_ofDecimal (layout : Layout) (negative : Bool) {decimal : Decimal} {d : Digit}
    {ds : List Digit} (hds : decimal.digits = d :: ds) (hd : d ≠ 0) :
    (ofDecimal layout negative decimal).Proper := by
  rw [ofDecimal]
  dsimp only
  rw [hds]
  -- The layout is one with an exponent or without, and with or without leading zeros.
  split
  · split
    · exact ⟨.inl rfl, by simp⟩
    · exact ⟨.inr ⟨d, _, rfl, hd⟩, by simp⟩
  · refine ⟨.inr ⟨d, _, rfl, hd⟩, ?_⟩
    rintro e ⟨⟩
    exact digits_ne_nil _

/-- The significand of a finite number has twenty-four bits. -/
theorem significand_lt {x : Binary32} {m : Nat} {q : Int} (h : x.finite? = some (m, q)) :
    m < 2 ^ 24 := by
  have hbits : x.significandBits < 2 ^ 23 := Nat.mod_lt _ (by decide)
  unfold Binary32.finite? at h
  -- The number is subnormal or has a leading bit that is not stored.
  split at h
  · cases h
  · split at h
    · cases h
      omega
    · cases h
      omega

/-- The exponent of a finite number is that of the largest numbers or less. -/
theorem exponent_le {x : Binary32} {m : Nat} {q : Int} (h : x.finite? = some (m, q)) :
    q ≤ 104 := by
  have hbits : x.exponentBits < 2 ^ 8 := Nat.mod_lt _ (by decide)
  unfold Binary32.finite? at h
  split at h
  · cases h
  · split at h
    · cases h
      omega
    · cases h
      omega

theorem Numeral.proper_ofSingle {x : Binary32} {n : Numeral} (h : Numeral.ofSingle? x = some n) :
    n.Proper := by
  rw [ofSingle?, Option.map_eq_some_iff] at h
  obtain ⟨⟨m, q⟩, hfinite, hn⟩ := h
  have hlt := significand_lt hfinite
  dsimp only at hn
  split at hn
  · subst hn
    exact ⟨.inl rfl, by simp⟩
  · rename_i hm
    obtain ⟨d, ds, hds, hd⟩ := Format.shortest_digits .single (m := m) q (by omega) (by omega)
    subst hn
    exact Numeral.proper_ofDecimal _ _ hds hd

theorem proper_ofSingle (x : Binary32) : (ofSingle x).Proper := by
  rw [ofSingle]
  split
  · rename_i n h
    exact Numeral.proper_ofSingle h
  · trivial

end FieldTelemetry.Json

namespace FieldTelemetry

/-! ## Numbers that survive -/

/-- The number is read back from its JSON text. -/
def Binary32.Survives (x : Binary32) : Prop :=
  (Json.parse? (Text.utf8 (Json.ofSingle x).compact)).bind Json.single? = some x

instance (x : Binary32) : Decidable x.Survives := by
  unfold Binary32.Survives; infer_instance

/-- The text of a number is read as its numeral is. -/
theorem Binary32.survives_iff (x : Binary32) : x.Survives ↔ (Json.ofSingle x).single? = some x := by
  rw [Survives, Json.parse?_compact (Json.proper_ofSingle x), Option.bind_some]

namespace Json

open Time (Instant)

/-! ## Values that are kept -/

/-- The value is read back from what is written for it, which is proper and can be taken out of a
text where arrays and objects may nest to a depth. -/
structure Kept {α : Type} (read : Json → Option α) (write : α → Json) (height : Nat) (x : α) :
    Prop where
  /-- It is read back. -/
  read_write : read (write x) = some x
  /-- Its numerals are numerals of JSON. -/
  proper : (write x).Proper
  /-- It can be taken out of its text. -/
  plain : ∀ depth, height ≤ depth → (write x).plain depth = true

theorem kept_text (text : String) : Kept text? ofString 0 text :=
  ⟨rfl, trivial, fun _ _ => by simp [ofString, Json.plain]⟩

theorem kept_instant (a : Instant) : Kept instant? ofInstant 0 a := by
  refine ⟨?_, trivial, fun _ _ => by simp [ofInstant, ofString, Json.plain]⟩
  have htext : (ofInstant a).text? = some a.zulu := rfl
  rw [instant?, htext, Option.bind_eq_bind, Option.bind_some, Instant.ofRelaxed?_zulu]

section Words

theorem naturalBelow?_ofNat {n bound : Nat} (h : n < bound) (hbound : bound ≤ 2 ^ 64) :
    (ofNat n).naturalBelow? bound = some n := by
  have hn := Numeral.integer?_ofNat (h.trans_le hbound)
  have hinteger : (ofNat n).integer? = some (n : Int) := hn
  rw [naturalBelow?, integerIn?, hinteger]
  simp only [Option.bind_eq_bind, Option.bind_some]
  rw [if_pos (by omega)]
  rfl

theorem plain_ofNat {n : Nat} (h : n < 2 ^ 64) (depth : Nat) : (ofNat n).plain depth = true := by
  show ((Numeral.ofNat n).integer?.isSome || _) = true
  rw [Numeral.integer?_ofNat h]
  rfl

theorem kept_uint32 (n : UInt32) : Kept uint32? ofUInt32 0 n := by
  have hn := n.toNat_lt
  refine ⟨?_, Numeral.proper_ofNat _, fun depth _ => plain_ofNat (by omega) depth⟩
  rw [uint32?, ofUInt32, naturalBelow?_ofNat hn (by decide), Option.map_some, UInt32.ofNat_toNat]

theorem kept_uint64 (n : UInt64) : Kept uint64? ofUInt64 0 n := by
  have hn := n.toNat_lt
  refine ⟨?_, Numeral.proper_ofNat _, fun depth _ => plain_ofNat hn depth⟩
  rw [uint64?, ofUInt64, naturalBelow?_ofNat hn (by decide), Option.map_some, UInt64.ofNat_toNat]

theorem kept_int32 (n : Int32) : Kept int32? ofInt32 0 n := by
  have hlow := n.le_toInt
  have hhigh := n.toInt_lt
  have hinteger := Numeral.integer?_ofInt (n := n.toInt) (by omega) (by omega)
  refine ⟨?_, Numeral.proper_ofInt _, ?_⟩
  · have hread : (ofInt n.toInt).integer? = some n.toInt := hinteger
    rw [int32?, ofInt32, integerIn?, hread]
    simp only [Option.bind_eq_bind, Option.bind_some]
    rw [if_pos ⟨n.minValue_le_toInt, n.toInt_le⟩, Option.map_some, Int32.ofInt_toInt]
  · intro depth _
    show ((Numeral.ofInt n.toInt).integer?.isSome || _) = true
    rw [hinteger]
    rfl

end Words

/-- A number that survives is kept. -/
theorem kept_single {x : Binary32} (h : x.Survives) : Kept single? ofSingle 0 x := by
  rw [Binary32.survives_iff] at h
  refine ⟨h, proper_ofSingle x, ?_⟩
  intro depth _
  rw [ofSingle] at h ⊢
  cases hn : Numeral.ofSingle? x with
  | none => rfl
  | some n =>
    rw [hn] at h
    change n.single? = some x at h
    rw [Numeral.single?] at h
    show (n.integer?.isSome || n.double?.isSome) = true
    -- A numeral is held as a whole number or else as a number of double precision.
    cases hinteger : n.integer? with
    | some v => rfl
    | none =>
      rw [hinteger] at h
      change n.double?.map _ = some x at h
      rw [Option.map_eq_some_iff] at h
      obtain ⟨magnitude, hdouble, -⟩ := h
      rw [hdouble]
      rfl

/-! ## Slots -/

section Slots

variable {α : Type} {read : Json → Option α} {write : α → Json} {height : Nat}

/-- An optional value is read back from its slot. -/
theorem optional?_map (hnull : read .null = none) (x : Option α)
    (h : ∀ a ∈ x, Kept read write height a) : optional? read (x.map write) = some x := by
  cases x with
  | none => rfl
  | some a =>
    have hread := (h a rfl).read_write
    rw [Option.map_some]
    -- What is written is not null, as null is read as nothing.
    cases hw : write a with
    | null =>
      rw [hw, hnull] at hread
      cases hread
    | _ => rw [hw] at hread; simp only [optional?, hread, Option.map_some]

/-- A value that has to be there is read back from its slot. -/
theorem required?_some {a : α} (h : Kept read write height a) :
    required? read (some (write a)) = some a :=
  h.read_write

end Slots

end Json

end FieldTelemetry
