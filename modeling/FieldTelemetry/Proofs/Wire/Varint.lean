import FieldTelemetry.Wire.Decode
import Mathlib.Tactic.Ring

/-!
# Integers in groups of seven bits

The automaton of an integer reads every number of sixty-four bits in at most ten groups, in as few
as hold it or in more. The groups that are written for a number are such.

## Main definitions

* `Reads`: an automaton answers at the last of some octets
* `IsVarint`: octets are a number in groups of seven bits

## Main results

* `IsVarint.reads`: a number is read from its groups
* `isVarint_varint`: a number is written in its groups
-/

namespace FieldTelemetry.Wire

/-- An automaton that may answer at every octet answers at the last of some octets. -/
inductive Reads {σ ρ ε : Type} (step : σ → UInt8 → Except ε (σ ⊕ ρ)) : σ → Octets → ρ → Prop
  /-- It answers at this octet. -/
  | last {s : σ} {b : UInt8} {r : ρ} (h : step s b = .ok (.inr r)) : Reads step s [b] r
  /-- It goes on to the next octet. -/
  | more {s s' : σ} {b : UInt8} {bs : Octets} {r : ρ} (h : step s b = .ok (.inl s'))
      (hrest : Reads step s' bs r) : Reads step s (b :: bs) r

/-- The number of groups of seven bits, the lowest first. -/
def ofGroups (octets : Octets) : Nat := octets.foldr (fun b n => b.toNat % 128 + 128 * n) 0

@[simp]
theorem ofGroups_nil : ofGroups [] = 0 := rfl

@[simp]
theorem ofGroups_cons (b : UInt8) (octets : Octets) :
    ofGroups (b :: octets) = b.toNat % 128 + 128 * ofGroups octets := rfl

/-- Octets are a number of sixty-four bits in at most ten groups. -/
structure IsVarint (octets : Octets) (n : Nat) : Prop where
  /-- All groups but the last have their top bit set. -/
  shape : ∃ front last, octets = front ++ [last] ∧ (∀ b ∈ front, 128 ≤ b.toNat) ∧ last.toNat < 128
  /-- There are at most ten groups. -/
  length_le : octets.length ≤ 10
  /-- They make up the number. -/
  ofGroups_eq : ofGroups octets = n
  /-- The number has sixty-four bits. -/
  lt_size : n < UInt64.size

theorem IsVarint.ne_nil {octets : Octets} {n : Nat} (h : IsVarint octets n) : octets ≠ [] := by
  obtain ⟨front, last, rfl, -, -⟩ := h.shape
  exact List.concat_ne_nil _ _

/-! ## Reading -/

namespace OpenVarint

theorem step_of_more {v : OpenVarint} {b : UInt8} (hcount : v.count < 9) (hb : 128 ≤ b.toNat) :
    v.step b = .ok (.inl ⟨v.value + b.toNat % 128 * 128 ^ v.count, v.count + 1⟩) := by
  have htenth : ¬ (9 ≤ v.count ∧ 2 ≤ b.toNat) := by omega
  rw [step, if_neg htenth, if_neg (by omega)]
  rfl

theorem step_of_last {v : OpenVarint} {b : UInt8} (htenth : 9 ≤ v.count → b.toNat < 2)
    (hb : b.toNat < 128) : v.step b = .ok (.inr (v.value + b.toNat * 128 ^ v.count)) := by
  have hnot : ¬ (9 ≤ v.count ∧ 2 ≤ b.toNat) := by omega
  rw [step, if_neg hnot, if_pos hb, Nat.mod_eq_of_lt hb]
  rfl

/-- The groups that are missing from an integer complete it. -/
theorem reads_groups {front : Octets} {last : UInt8} (hfront : ∀ b ∈ front, 128 ≤ b.toNat)
    (hlast : last.toNat < 128) (v : OpenVarint) (hlength : v.count + front.length ≤ 9)
    (hsize : ofGroups (front ++ [last]) * 128 ^ v.count < UInt64.size) :
    Reads step v (front ++ [last]) (v.value + ofGroups (front ++ [last]) * 128 ^ v.count) := by
  induction front generalizing v with
  | nil =>
    rw [List.nil_append, ofGroups_cons, ofGroups_nil, Nat.mod_eq_of_lt hlast] at hsize ⊢
    refine .last (step_of_last ?_ hlast)
    intro hcount
    -- Nine groups hold 63 bits, so one bit is left for the tenth.
    have hnine : v.count = 9 := by simp only [List.length_nil] at hlength; omega
    rw [hnine] at hsize
    have hbound : UInt64.size = 2 * 128 ^ 9 := rfl
    omega
  | cons b front ih =>
    obtain ⟨hb, hfront⟩ := List.forall_mem_cons.mp hfront
    rw [List.length_cons] at hlength
    refine .more (step_of_more (by omega) hb) ?_
    have hshift : ofGroups (b :: front ++ [last]) * 128 ^ v.count
        = b.toNat % 128 * 128 ^ v.count + ofGroups (front ++ [last]) * 128 ^ (v.count + 1) := by
      rw [List.cons_append, ofGroups_cons]
      ring
    rw [hshift, ← Nat.add_assoc]
    exact ih hfront ⟨_, v.count + 1⟩ (by dsimp only; omega) (by dsimp only; omega)

end OpenVarint

/-- A number is read from its groups. -/
theorem IsVarint.reads {octets : Octets} {n : Nat} (h : IsVarint octets n) :
    Reads OpenVarint.step .start octets n := by
  obtain ⟨⟨front, last, rfl, hfront, hlast⟩, hlength, rfl, hsize⟩ := h
  have hstart := OpenVarint.reads_groups hfront hlast .start
  simp only [OpenVarint.start, Nat.zero_add, Nat.pow_zero, Nat.mul_one] at hstart
  rw [List.length_append, List.length_singleton] at hlength
  exact hstart (by omega) hsize

/-! ## Writing -/

/-- The groups of a number that has no more bits than they hold. -/
theorem groups_spec {more n : Nat} (h : n < 128 ^ (more + 1)) :
    (∃ front last, groups more n = front ++ [last] ∧ (∀ b ∈ front, 128 ≤ b.toNat)
        ∧ last.toNat < 128)
      ∧ (groups more n).length ≤ more + 1 ∧ ofGroups (groups more n) = n := by
  have hsmall {n : Nat} (h : n < 128) : (UInt8.ofNat n).toNat = n := by
    rw [UInt8.toNat_ofNat']
    omega
  induction more generalizing n with
  | zero =>
    have hn : n < 128 := h
    refine ⟨⟨[], _, rfl, by simp, (hsmall hn).trans_lt hn⟩, le_rfl, ?_⟩
    rw [groups, ofGroups_cons, ofGroups_nil, hsmall hn]
    omega
  | succ more ih =>
    rw [groups]
    split
    · rename_i hn
      refine ⟨⟨[], _, rfl, by simp, (hsmall hn).trans_lt hn⟩, by simp, ?_⟩
      rw [ofGroups_cons, ofGroups_nil, hsmall hn]
      omega
    · have hgroup : (UInt8.ofNat (n % 128 + 128)).toNat = n % 128 + 128 := by
        rw [UInt8.toNat_ofNat']
        omega
      have hrest : n / 128 < 128 ^ (more + 1) := by
        rw [pow_succ] at h
        exact Nat.div_lt_of_lt_mul (by rwa [Nat.mul_comm])
      obtain ⟨⟨front, last, hgroups, hfront, hlast⟩, hlength, hvalue⟩ := ih hrest
      refine ⟨⟨UInt8.ofNat (n % 128 + 128) :: front, last, by rw [hgroups]; rfl, ?_, hlast⟩, ?_, ?_⟩
      · rw [List.forall_mem_cons, hgroup]
        exact ⟨by omega, hfront⟩
      · rw [List.length_cons]
        omega
      · rw [ofGroups_cons, hgroup, hvalue]
        omega

/-- A number of sixty-four bits is written in its groups. -/
theorem isVarint_varint {n : Nat} (h : n < UInt64.size) : IsVarint (varint n) n := by
  have hbits : n < 128 ^ 10 := h.trans (by decide)
  obtain ⟨hshape, hlength, hvalue⟩ := groups_spec hbits
  exact ⟨hshape, hlength, hvalue, h⟩

end FieldTelemetry.Wire
