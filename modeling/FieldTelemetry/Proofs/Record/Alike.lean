import FieldTelemetry.Proofs.Record.Groups

/-!
# Values that count as the same

The equality that decides whether a value has changed is symmetric and transitive, and every value
without a NaN counts as the same as itself.

## Main definitions

* `EquivalenceOn`: relations that are equivalences on some of the values
* `LawfulAlike`: the types whose equality is an equivalence on the values without a NaN

## Main results

* `LawfulAlike` for the groups of a record and `SensorRecord`
-/

namespace FieldTelemetry

open Json (Lossless)
open Json.Lossless (numbers optionNumbers mem_optionNumbers)

/-! ## Equivalences on some values -/

/-- A symmetric and transitive relation in which each of some values stands to itself. -/
structure EquivalenceOn {α : Type} (Proper : α → Prop) (r : α → α → Bool) : Prop where
  /-- Each of these values stands to itself. -/
  self : ∀ {a}, Proper a → r a a = true
  /-- The relation is symmetric. -/
  symm : ∀ {a b}, r a b = true → r b a = true
  /-- The relation is transitive. -/
  trans : ∀ {a b c}, r a b = true → r b c = true → r a c = true

namespace EquivalenceOn

variable {α β : Type} {Proper : α → Prop} {r r' : α → α → Bool}

/-- Values that agree in two ways. -/
theorem and (h : EquivalenceOn Proper r) (h' : EquivalenceOn Proper r') :
    EquivalenceOn Proper fun a b => r a b && r' a b where
  self ha := by rw [h.self ha, h'.self ha, Bool.and_self]
  symm hab := by
    rw [Bool.and_eq_true] at hab ⊢
    exact ⟨h.symm hab.1, h'.symm hab.2⟩
  trans hab hbc := by
    rw [Bool.and_eq_true] at hab hbc ⊢
    exact ⟨h.trans hab.1 hbc.1, h'.trans hab.2 hbc.2⟩

/-- Values that agree in one part. -/
theorem part {Proper' : β → Prop} {s : β → β → Bool} (h : EquivalenceOn Proper' s) {f : α → β}
    (hf : ∀ a, Proper a → Proper' (f a)) : EquivalenceOn Proper fun a b => s (f a) (f b) where
  self ha := h.self (hf _ ha)
  symm := h.symm
  trans := h.trans

/-- Values that are equal in one part. -/
theorem same [BEq β] [LawfulBEq β] (f : α → β) : EquivalenceOn Proper fun a b => f a == f b where
  self _ := beq_self_eq_true _
  symm hab := beq_iff_eq.mpr (beq_iff_eq.mp hab).symm
  trans hab hbc := beq_iff_eq.mpr ((beq_iff_eq.mp hab).trans (beq_iff_eq.mp hbc))

/-- Optional values that are both absent or agree. -/
theorem option [Alike α] (h : EquivalenceOn Proper (Alike.alike : α → α → Bool)) :
    EquivalenceOn (fun x : Option α => ∀ a ∈ x, Proper a) Alike.alike where
  self {x} hx := by
    cases x with
    | none => rfl
    | some a => exact h.self (hx a rfl)
  symm {x y} hxy := by
    cases x <;> cases y
    case none.none => rfl
    case some.some => exact h.symm hxy
    all_goals cases hxy
  trans {x y z} hxy hyz := by
    cases x <;> cases y
    case none.none => exact hyz
    case some.some =>
      cases z
      case none => cases hyz
      case some => exact h.trans hxy hyz
    all_goals cases hxy

end EquivalenceOn

/-! ## Numbers -/

namespace Binary32

theorem equivalenceOn_alike :
    EquivalenceOn (fun x : Binary32 => x.isNaN = false) Alike.alike where
  self ha := decide_eq_true ⟨ha, ha, .inl rfl⟩
  symm hab := by
    obtain ⟨ha, hb, hsame⟩ := of_decide_eq_true hab
    exact decide_eq_true ⟨hb, ha, hsame.imp Eq.symm And.symm⟩
  trans hab hbc := by
    obtain ⟨ha, -, hab⟩ := of_decide_eq_true hab
    obtain ⟨-, hc, hbc⟩ := of_decide_eq_true hbc
    refine decide_eq_true ⟨ha, hc, ?_⟩
    -- Numbers are the same when their bits are, or when both are zeros.
    rcases hab with rfl | ⟨hzero, hzero'⟩
    · exact hbc
    · rcases hbc with rfl | ⟨-, hzero''⟩
      · exact .inr ⟨hzero, hzero'⟩
      · exact .inr ⟨hzero, hzero''⟩

/-- A number that survives is not a NaN. -/
theorem isNaN_eq_false {x : Binary32} (h : x.Survives) : x.isNaN = false := by
  rw [survives_iff] at h
  by_contra hnan
  rw [Bool.not_eq_false, isNaN, Bool.and_eq_true, beq_iff_eq] at hnan
  -- A NaN is written as null, from which no number is read.
  have hnull : Json.ofSingle x = .null := by
    rw [Json.ofSingle, Json.Numeral.ofSingle?, finite?, if_pos hnan.1]
    rfl
  rw [hnull] at h
  cases h

end Binary32

/-! ## Groups -/

/-- A record has no NaN. -/
def Proper {α : Type} [Json.Record α] [Lossless α] (x : α) : Prop :=
  ∀ n ∈ numbers x, n.isNaN = false

/-- The types whose equality is an equivalence on the values without a NaN. -/
class LawfulAlike (α : Type) [Json.Record α] [Lossless α] [Alike α] : Prop where
  /-- It is an equivalence. -/
  equivalence : EquivalenceOn Proper (Alike.alike : α → α → Bool)

export LawfulAlike (equivalence)

namespace EquivalenceOn

variable {α : Type} [Json.Record α] [Lossless α]

/-- Records that agree in an optional number. -/
theorem number (f : α → Option Binary32)
    (hf : ∀ x, ∃ parts : List (Option Binary32), numbers x = parts.reduceOption ∧ f x ∈ parts) :
    EquivalenceOn Proper fun a b => sameNumber (f a) (f b) := by
  apply Binary32.equivalenceOn_alike.option.part
  intro x hx n hn
  obtain ⟨parts, hnumbers, hpart⟩ := hf x
  apply hx n
  rw [hnumbers, List.reduceOption_mem_iff]
  exact (Option.mem_def.mp hn) ▸ hpart

/-- Records that agree in an optional group. -/
theorem group {β : Type} [Json.Record β] [Lossless β] [Alike β] [LawfulAlike β]
    (f : α → Option β) (hf : ∀ x, ∀ n ∈ optionNumbers (f x), n ∈ numbers x) :
    EquivalenceOn Proper fun a b => Alike.alike (f a) (f b) := by
  apply equivalence.option.part
  intro x hx a ha n hn
  exact hx n (hf x n (mem_optionNumbers.mpr ⟨a, ha, hn⟩))

end EquivalenceOn

open EquivalenceOn (same number group)

instance : LawfulAlike Location where
  equivalence :=
    ((number Location.lat fun _ => ⟨_, rfl, by simp⟩).and
      (number Location.lon fun _ => ⟨_, rfl, by simp⟩)).and (same Location.alt)

instance : LawfulAlike Environment where
  equivalence :=
    ((number Environment.temp fun _ => ⟨_, rfl, by simp⟩).and
      (number Environment.humid fun _ => ⟨_, rfl, by simp⟩)).and
      (number Environment.press fun _ => ⟨_, rfl, by simp⟩)

instance : LawfulAlike Battery where
  equivalence :=
    ((number Battery.voltage fun _ => ⟨_, rfl, by simp⟩).and
      (number Battery.soc fun _ => ⟨_, rfl, by simp⟩)).and
      (number Battery.current fun _ => ⟨_, rfl, by simp⟩)

instance : LawfulAlike Geiger where
  equivalence := (same Geiger.cpm0).and (same Geiger.cpm1)

instance : LawfulAlike Particulate where
  equivalence :=
    (((number Particulate.pm01_0 fun _ => ⟨_, rfl, by simp⟩).and
      (number Particulate.pm02_5 fun _ => ⟨_, rfl, by simp⟩)).and
      (number Particulate.pm10_0 fun _ => ⟨_, rfl, by simp⟩)).and (same Particulate.csecs)

instance : LawfulAlike Reception where
  equivalence :=
    (((((same Reception.id).and (number Reception.lat fun _ => ⟨_, rfl, by simp⟩)).and
      (number Reception.lon fun _ => ⟨_, rfl, by simp⟩)).and (same Reception.alt)).and
      (number Reception.snr fun _ => ⟨_, rfl, by simp⟩)).and (same Reception.location)

instance : LawfulAlike ServiceInfo where
  equivalence :=
    (((same ServiceInfo.uploadedAt).and (same ServiceInfo.transport)).and
      (same ServiceInfo.checksum)).and (same ServiceInfo.sequence)

/-! ## Records -/

namespace SensorRecord

/-- Records that agree in a group. -/
theorem equivalenceOn_group {β : Type} [Json.Record β] [Lossless β] [Alike β] [LawfulAlike β]
    (f : SensorRecord → Option β) (hf : ∀ x, optionNumbers (f x) ∈ groupNumbers x) :
    EquivalenceOn Proper fun a b : SensorRecord => Alike.alike (f a) (f b) :=
  group f fun x _ hn => List.mem_flatten_of_mem (hf x) hn

instance : LawfulAlike SensorRecord where
  equivalence :=
    (((((((((((same deviceId).and (same deviceName)).and (same deviceType)).and
      (same capturedAt)).and
      (equivalenceOn_group location fun _ => by simp [groupNumbers])).and
      (equivalenceOn_group environment fun _ => by simp [groupNumbers])).and
      (equivalenceOn_group battery fun _ => by simp [groupNumbers])).and
      (equivalenceOn_group geiger fun _ => by simp [groupNumbers])).and
      (equivalenceOn_group pms fun _ => by simp [groupNumbers])).and
      (equivalenceOn_group opc fun _ => by simp [groupNumbers])).and
      (equivalenceOn_group gateway fun _ => by simp [groupNumbers])).and
      (equivalenceOn_group service fun _ => by simp [groupNumbers]) |>.and (same approximated)

end SensorRecord

end FieldTelemetry
