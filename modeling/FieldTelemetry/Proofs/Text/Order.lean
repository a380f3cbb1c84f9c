import Mathlib.Data.List.Basic
import Mathlib.Data.String.Basic

/-!
# Sorting by texts

What has different texts can be sorted by them in one way only.

## Main results

* `pairwise_lt_mergeSort`: sorting by different texts leads to a strict order
* `eq_of_pairwise_lt`: what is in the strict order of texts has no other order
-/

namespace FieldTelemetry.Text

variable {α : Type} (key : α → String)

theorem pairwise_lt_mergeSort {l : List α} (h : (l.map key).Nodup) :
    ((l.mergeSort fun a b => key a ≤ key b).map key).Pairwise (· < ·) := by
  have hperm := List.mergeSort_perm l fun a b => key a ≤ key b
  have hsorted : (l.mergeSort fun a b => key a ≤ key b).Pairwise fun a b => key a ≤ key b := by
    refine (List.pairwise_mergeSort ?_ ?_ l).imp of_decide_eq_true
    · intro a b c hab hbc
      exact decide_eq_true (le_trans (of_decide_eq_true hab) (of_decide_eq_true hbc))
    · intro a b
      simpa using le_total (key a) (key b)
  -- No two texts are the same, so the order is strict.
  have hnodup := ((hperm.map key).nodup_iff).mpr h
  rw [List.pairwise_map]
  rw [List.Nodup, List.pairwise_map] at hnodup
  exact hsorted.imp₂ (fun _ _ hle hne => lt_of_le_of_ne hle hne) hnodup

theorem eq_of_pairwise_lt {as bs : List α} (ha : (as.map key).Pairwise (· < ·))
    (hb : (bs.map key).Pairwise (· < ·)) (h : ∀ a, a ∈ as ↔ a ∈ bs) : as = bs := by
  rw [List.pairwise_map] at ha hb
  have hnodup {l : List α} (hl : l.Pairwise fun a b => key a < key b) : l.Nodup :=
    hl.imp fun hlt heq => hlt.ne (congrArg key heq)
  have hperm := (List.perm_ext_iff_of_nodup (hnodup ha) (hnodup hb)).mpr h
  exact hperm.eq_of_pairwise (fun _ _ _ _ hab hba => absurd hab hba.not_gt) ha hb

end FieldTelemetry.Text
