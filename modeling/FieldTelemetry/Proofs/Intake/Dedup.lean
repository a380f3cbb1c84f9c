import FieldTelemetry.Intake.Dedup
import FieldTelemetry.Proofs.Ring

/-!
# What a ring of checksums remembers

A checksum belongs to a copy exactly when one of the remembered sightings suppresses it. Otherwise
its own sighting is remembered, in front of the others.

## Main definitions

* `Sighting.Suppresses`: a sighting is of a checksum, less than a window ago

## Main results

* `DedupRing.check_of_suppressed`, `DedupRing.check_of_fresh`: the two ways of a checksum
-/

namespace FieldTelemetry

/-- A value is among the first few of the picked ones, read from the end, when it is picked and only
few are picked after it. -/
theorem mem_take_reverse_filterMap {α β : Type} {pick : α → Option β} {values : List α}
    {count : Nat} {b : β} :
    b ∈ (values.filterMap pick).reverse.take count
      ↔ ∃ before a after, values = before ++ a :: after ∧ pick a = some b
        ∧ (after.filterMap pick).length < count := by
  constructor
  · intro hmem
    obtain ⟨newer, older, hnewer⟩ := List.append_of_mem hmem
    -- What is not among the first few is older still.
    have hsplit : (values.filterMap pick).reverse
        = newer ++ b :: (older ++ (values.filterMap pick).reverse.drop count) := by
      rw [← List.cons_append, ← List.append_assoc, ← hnewer, List.take_append_drop]
    rw [List.reverse_eq_iff, List.reverse_append, List.reverse_cons, List.append_assoc,
      List.singleton_append] at hsplit
    obtain ⟨before, rest, rfl, -, hrest⟩ := List.filterMap_eq_append_iff.mp hsplit
    obtain ⟨skipped, a, after, rfl, -, ha, hafter⟩ := List.filterMap_eq_cons_iff.mp hrest
    refine ⟨before ++ skipped, a, after, (List.append_assoc ..).symm, ha, ?_⟩
    have hlength : newer.length + (older.length + 1) ≤ count := by
      rw [← List.length_cons, ← List.length_append, ← hnewer]
      exact List.length_take_le ..
    rw [hafter, List.length_reverse]
    omega
  · rintro ⟨before, a, after, rfl, ha, hcount⟩
    obtain ⟨more, hmore⟩ := Nat.exists_eq_add_of_lt hcount
    rw [List.filterMap_append, List.filterMap_cons_some ha, List.reverse_append, List.reverse_cons,
      List.append_assoc, hmore, Nat.add_assoc, ← List.length_reverse, List.take_length_add_append]
    exact List.mem_append_right _ List.mem_cons_self

namespace Intake

open Time (Instant Span)

/-- A sighting suppresses a checksum: it is one of it, and less than the window ago. -/
def Sighting.Suppresses (sighting : Sighting) (window : Span) (checksum : UInt32)
    (now : Instant) : Prop :=
  sighting.checksum = checksum ∧ now.since sighting.seenAt < window

namespace DedupRing

variable {capacity : Nat} {dedup : DedupRing capacity} {checksum : UInt32} {now : Instant}

/-- A ring suppresses a checksum: one of the remembered sightings does. -/
def Suppresses (dedup : DedupRing capacity) (checksum : UInt32) (now : Instant) : Prop :=
  ∃ sighting ∈ dedup.ring.entries, sighting.Suppresses dedup.window checksum now

theorem find?_isSome_iff : (dedup.find? checksum now).isSome = true
    ↔ dedup.Suppresses checksum now := by
  rw [find?, List.find?_isSome]
  simp only [Suppresses, Sighting.Suppresses, Bool.and_eq_true, beq_iff_eq, decide_eq_true_eq]

/-- A checksum that is suppressed leaves the ring as it is. -/
theorem check_of_suppressed (h : dedup.Suppresses checksum now) :
    ∃ age, dedup.check checksum now = (.copy age, dedup) := by
  obtain ⟨sighting, hsighting⟩ := Option.isSome_iff_exists.mp (find?_isSome_iff.mpr h)
  rw [check, hsighting]
  exact ⟨_, rfl⟩

/-- A checksum that is not suppressed is remembered. -/
theorem check_of_fresh (h : ¬ dedup.Suppresses checksum now) :
    dedup.check checksum now
      = (.fresh, { dedup with ring := dedup.ring.push ⟨checksum, now⟩ }) := by
  rw [← find?_isSome_iff, Bool.not_eq_true, Option.isSome_eq_false_iff, Option.isNone_iff_eq_none]
    at h
  rw [check, h]

end DedupRing

end Intake

end FieldTelemetry
