import FieldTelemetry.Proofs.Json.Record
import FieldTelemetry.Proofs.Number.Rounding

/-!
# Records read whatever their numbers

A number of the single format has a text from which a number is read, though it need not be the same
one, and infinities and NaNs are read as absent values. So a record can be read from its object
whatever its numbers are.

## Main definitions

* `Binary32.reread?`: the number that is read from the text of a number
* `ReadsAs`: what is read from the values that are written
* `Readable`: the types of records that are read whatever their numbers

## Main results

* `Numeral.isSome_double?_ofSingle`: the numeral of a number does not exceed the double format
* `readsAs_record`: a record is read from its object
-/

namespace FieldTelemetry.Json

open Binary Text

/-! ## Numerals within the double format -/

namespace Numeral

theorem leadingWord_le (ds : List Digit) {word : Nat} (h : word ≤ wordLimit) :
    (leadingWord word ds).1 ≤ wordLimit ∧ (leadingWord word ds).2 ≤ ds.length := by
  induction ds generalizing word with
  | nil => exact ⟨h, le_rfl⟩
  | cons d ds ih =>
    rw [leadingWord]
    split
    · exact ⟨h, le_rfl⟩
    · rename_i hfits
      obtain ⟨hword, hleft⟩ := ih (Nat.le_of_not_lt hfits)
      exact ⟨hword, hleft.trans (Nat.le_succ _)⟩

/-- A word times a power of ten that is not too large does not exceed the double format. -/
theorem isSome_scaled? {word : Nat} (hword : word ≤ wordLimit) {exponent : Int}
    (hexponent : exponent ≤ 200) : (scaled? word exponent).isSome := by
  rw [scaled?]
  split
  · rfl
  · rename_i hzero
    split
    · rfl
    · have hlimit : ¬ stepLimit < exponent.toNat := by
        rw [stepLimit]
        omega
      rw [if_neg hlimit]
      have hwordBits : word.log2 < 64 := by
        rw [Nat.log2_lt hzero]
        exact hword.trans_lt (by decide)
      have hpowerBits : (10 ^ exponent.toNat).log2 < 4 * exponent.toNat + 1 := by
        rw [Nat.log2_lt (by positivity)]
        calc 10 ^ exponent.toNat ≤ (2 ^ 4) ^ exponent.toNat := Nat.pow_le_pow_left (by decide) _
          _ = 2 ^ (4 * exponent.toNat) := (Nat.pow_mul ..).symm
          _ < 2 ^ (4 * exponent.toNat + 1) := Nat.pow_lt_pow_right (by decide) (Nat.lt_succ_self _)
      have hproduct : Format.double.multiply (Format.double.round word 1) (power exponent.toNat)
          ≠ .infinite := by
        rw [power, Nat.pow_eq]
        apply Format.multiply_ne_infinite Format.double (by decide) (by decide) hzero
          (by positivity) _ (by decide)
        simp only [Format.double]
        omega
      split
      · contradiction
      · rfl

/-- A numeral with few digits before the point and no large exponent does not exceed the double
format. -/
theorem isSome_double? {n : Numeral} (hwhole : n.whole.length ≤ 100)
    (hexponent : ∀ e, n.exponent = some e → e.negative = false → value e.digits ≤ 100) :
    n.double?.isSome := by
  have hzero : 0 ≤ wordLimit := Nat.zero_le _
  obtain ⟨hword, hleft⟩ := leadingWord_le n.whole hzero
  obtain ⟨hnext, -⟩ := leadingWord_le n.fraction hword
  rw [double?]
  dsimp only [fractionWord]
  split
  · exact isSome_scaled? hnext (by omega)
  · rename_i e he
    split
    · rename_i hlarge
      -- Only an exponent below zero can be that large.
      have hnegative : e.negative = true := by
        by_contra hpositive
        have := hexponent e he (by simpa using hpositive)
        rw [exponentLimit] at hlarge
        omega
      simp [hnegative]
    · apply isSome_scaled? hnext
      split
      · omega
      · rename_i hpositive
        have := hexponent e he (by simpa using hpositive)
        omega

/-- A decimal with a small exponent is laid out as a numeral that does not exceed the double
format. -/
theorem isSome_double?_ofDecimal (negative : Bool) {decimal : Decimal}
    (h : decimal.exponent ≤ 100) : (ofDecimal layout negative decimal).double?.isSome := by
  have hgreatest : layout.greatest = 12 := rfl
  apply isSome_double?
  · rw [ofDecimal]
    dsimp only
    split
    · split
      · simp
      · simp only [List.length_append, List.length_take, List.length_replicate]
        omega
    · simp only [List.length_take]
      omega
  · intro e he hpositive
    rw [ofDecimal] at he
    dsimp only at he
    split at he
    · split at he <;> cases he
    · cases he
      have hsign : ¬ decimal.exponent < 0 := by simpa using hpositive
      rw [value_digits]
      omega

/-- The numeral of a number of the single format does not exceed the double format. -/
theorem isSome_double?_ofSingle {x : Binary32} {n : Numeral} (h : ofSingle? x = some n) :
    n.double?.isSome := by
  rw [ofSingle?, Option.map_eq_some_iff] at h
  obtain ⟨⟨m, q⟩, hfinite, hn⟩ := h
  have hm := significand_lt hfinite
  have hq := exponent_le hfinite
  dsimp only at hn
  split at hn
  · subst hn
    exact isSome_double? (by simp) (by simp)
  · subst hn
    apply isSome_double?_ofDecimal
    -- The largest number of the single format has thirty-nine digits.
    have hmiddle : 4 * m * 2 ^ (q - 2).toNat < 10 ^ 39 := by
      calc 4 * m * 2 ^ (q - 2).toNat ≤ 4 * 2 ^ 24 * 2 ^ 102 :=
            Nat.mul_le_mul (by omega) (Nat.pow_le_pow_right (by decide) (by omega))
        _ < 10 ^ 39 := by norm_num
    exact (Format.shortest_exponent_le .single hmiddle (by decide)).trans (by decide)

end Numeral

end FieldTelemetry.Json

namespace FieldTelemetry

/-! ## Numbers -/

/-- The number that is read from the JSON text of a number. An infinity or a NaN is written as null,
from which none is read. -/
def Binary32.reread? (x : Binary32) : Option Binary32 := (Json.ofSingle x).single?

namespace Json

/-- What is written for a number is null, or a numeral from which a number is read. -/
theorem ofSingle_cases (x : Binary32) :
    ofSingle x = .null ∨ ∃ n y, ofSingle x = .number n ∧ n.single? = some y
      ∧ (n.integer?.isSome || n.double?.isSome) = true := by
  rw [ofSingle]
  cases hn : Numeral.ofSingle? x with
  | none => exact .inl rfl
  | some n =>
    have hdouble := Numeral.isSome_double?_ofSingle hn
    obtain ⟨magnitude, hmagnitude⟩ := Option.isSome_iff_exists.mp hdouble
    refine .inr ⟨n, ?_⟩
    rw [Numeral.single?, hdouble, Bool.or_true, hmagnitude]
    -- A numeral without point and exponent is read as a whole number.
    cases n.integer? with
    | some v => exact ⟨_, rfl, rfl, rfl⟩
    | none => exact ⟨_, rfl, rfl, rfl⟩

theorem optional?_single (x : Option Binary32) :
    optional? single? (x.map ofSingle) = some (x.bind Binary32.reread?) := by
  cases x with
  | none => rfl
  | some x =>
    rw [Option.map_some, Option.bind_some, Binary32.reread?]
    rcases ofSingle_cases x with hnull | ⟨n, y, hn, hy, -⟩
    · rw [hnull]
      rfl
    · have hread : single? (.number n) = some y := hy
      rw [hn, optional?, hread]
      · rfl
      · exact Json.noConfusion

theorem fits_single (x : Option Binary32) : Fits 0 (x.map ofSingle) := by
  intro json hjson
  obtain ⟨x, -, rfl⟩ := Option.mem_map.mp hjson
  refine ⟨proper_ofSingle x, fun depth _ => ?_⟩
  rcases ofSingle_cases x with hnull | ⟨n, y, hn, -, hplain⟩
  · rw [hnull]
    rfl
  · rw [hn]
    exact hplain

/-- A numeral denotes no NaN. -/
theorem Numeral.isNaN_single? {n : Numeral} {x : Binary32} (h : n.single? = some x) :
    x.isNaN = false := by
  unfold Numeral.single? at h
  split at h
  · cases h
    exact Binary32.isNaN_ofQuotient _ _ Nat.one_pos
  · obtain ⟨magnitude, -, rfl⟩ := Option.map_eq_some_iff.mp h
    exact Binary32.isNaN_narrow _ _

end Json

/-- No NaN is read. -/
theorem Binary32.isNaN_reread? {x y : Binary32} (h : x.reread? = some y) : y.isNaN = false := by
  rw [reread?] at h
  rcases Json.ofSingle_cases x with hnull | ⟨n, z, hn, hz, -⟩
  · rw [hnull] at h
    cases h
  · rw [hn] at h
    exact Json.Numeral.isNaN_single? h

namespace Json

/-! ## Records -/

/-- From what is written for a value, the value `reread` is read. What is written is proper and can
be taken out of a text where arrays and objects may nest to a depth. -/
structure ReadsAs {α β : Type} (read : Json → Option β) (write : α → Json) (height : Nat)
    (reread : α → β) : Prop where
  /-- A value is read. -/
  read_write : ∀ x, read (write x) = some (reread x)
  /-- The numerals that are written are numerals of JSON. -/
  proper : ∀ x, (write x).Proper
  /-- What is written can be taken out of its text. -/
  plain : ∀ x depth, height ≤ depth → (write x).plain depth = true

/-- The types of records that are read from their objects whatever their numbers are. -/
class Readable (α : Type) [Record α] [Lossless α] where
  /-- The record that is read: its numbers are those that are read from their texts, and it is
  without what was not written. -/
  reread : α → α
  /-- It is read from the values. -/
  ofValues?_reread : ∀ x : α, Record.ofValues? (Record.values x) = some (reread x)
  /-- The values can be written and taken out of their text. -/
  fits_values : ∀ x : α, ∀ value ∈ Record.values x, Fits (Lossless.height α) value

export Readable (reread)

section Records

variable {α : Type} [Record α] [Lossless α] [Readable α]

/-- A record is read from its object. -/
theorem readsAs_record :
    ReadsAs record? ofRecord (Lossless.height α + 1) (reread : α → α) := by
  have hfits (x : α) := fits_object (Record.form α) (Readable.fits_values x) (ofRecord x) rfl
  refine ⟨fun x => ?_, fun x => (hfits x).1, fun x => (hfits x).2⟩
  have hslots : slots? (Record.form α) (ofRecord x) = some (Record.values x) := by
    rw [ofRecord_eq, slots?]
    exact memberSlots?_written (Lossless.nodup (α := α)) (Lossless.length_values x)
  rw [record?, hslots]
  exact Readable.ofValues?_reread x

theorem optional?_record (x : Option α) :
    optional? record? (x.map ofRecord) = some (x.map reread) := by
  cases x with
  | none => rfl
  | some x =>
    have hread : record? (ofRecord x) = some (reread x) := readsAs_record.read_write x
    rw [Option.map_some, optional?, hread]
    · rfl
    · exact Json.noConfusion

theorem fits_record (x : Option α) : Fits (Lossless.height α + 1) (x.map ofRecord) := by
  intro json hjson
  obtain ⟨x, -, rfl⟩ := Option.mem_map.mp hjson
  exact ⟨readsAs_record.proper x, readsAs_record.plain x⟩

/-- A record whose numbers survive is read as it was when all of it is written. -/
theorem reread_eq {x : α} (h : ∀ n ∈ Lossless.numbers x, n.Survives)
    (hcomplete : Lossless.Complete x) : reread x = x :=
  Option.some.inj ((Readable.ofValues?_reread x).symm.trans
    (Lossless.ofValues?_values x h hcomplete))

end Records

/-- The items of an array are read when each of them is. -/
theorem readsAs_items {α β : Type} {read : Json → Option β} {write : α → Json} {height : Nat}
    {reread : α → β} (h : ReadsAs read write height reread) :
    ReadsAs (items? read) (fun items => .array (items.map write)) (height + 1)
      (List.map reread) := by
  have hfits (items : List α) : Fits (height + 1) (some (.array (items.map write))) := by
    apply fits_items
    rintro a - json ⟨⟩
    exact ⟨h.proper a, h.plain a⟩
  exact ⟨fun items => readAll?_map fun a _ => h.read_write a, fun items => (hfits items _ rfl).1,
    fun items => (hfits items _ rfl).2⟩

end Json

end FieldTelemetry
