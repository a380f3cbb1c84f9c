import FieldTelemetry.Delivery.Channel
import Mathlib.Data.List.DropRight
import Mathlib.Data.Set.Card

/-!
# Rows of failures

Among the results of deliveries, a row is a run of failures that cannot be made longer: before it
and behind it there is a success or nothing. A row of some length or a longer one has one failure
with that number in it, and no other failure ends as many in a row.

## Main definitions

* `FailedAt`, `IsRow`: the failures among results, and the rows of them
* `lastRow`: the number of failures that results end with

## Main results

* `lastRow_take_iff`: how many failures in a row a result ends
* `lastRow_take_eq_iff_row`: the failures with a number in their row
* `length_eq_ncard_rows`: there are as many of these as there are rows of that length
-/

namespace FieldTelemetry.Delivery

/-- What a delivery came to. -/
abbrev Result := Except SinkError Unit

/-- A delivery has failed. -/
def failed : Result → Bool
  | .ok _ => false
  | .error _ => true

/-- The result with a number is a failure. -/
def FailedAt (log : List Result) (i : Nat) : Prop := ∃ error, log[i]? = some (.error error)

/-- The results from `start` on are a row of failures of some length, which cannot be made
longer. -/
structure IsRow (log : List Result) (start length : Nat) : Prop where
  /-- There is a failure in the row. -/
  pos : 0 < length
  /-- All of the row are failures. -/
  failed : ∀ i, start ≤ i → i < start + length → FailedAt log i
  /-- The result before the row is none. -/
  before : start = 0 ∨ ¬ FailedAt log (start - 1)
  /-- The result behind the row is none. -/
  behind : ¬ FailedAt log (start + length)

/-- The number of failures in a row that results end with. -/
def lastRow (log : List Result) : Nat := (log.rtakeWhile failed).length

variable {log : List Result} {error : SinkError}

@[simp]
theorem lastRow_concat_ok (log : List Result) (u : Unit) : lastRow (log ++ [.ok u]) = 0 := by
  rw [lastRow, List.rtakeWhile_concat_neg]
  · rfl
  · exact Bool.false_ne_true

@[simp]
theorem lastRow_concat_error (log : List Result) (error : SinkError) :
    lastRow (log ++ [.error error]) = lastRow log + 1 := by
  rw [lastRow, List.rtakeWhile_concat_pos _ _ _ rfl, List.length_append]
  rfl

theorem FailedAt.lt_length {i : Nat} (h : FailedAt log i) : i < log.length := by
  obtain ⟨error, hget⟩ := h
  exact (List.getElem?_eq_some_iff.mp hget).1

/-- The results up to a number end with so many failures in a row: they are failures, and the
result before them is none. -/
theorem lastRow_take_iff {n k : Nat} (hn : n ≤ log.length) :
    lastRow (log.take n) = k
      ↔ k ≤ n ∧ (∀ i, n - k ≤ i → i < n → FailedAt log i)
        ∧ (k = n ∨ ¬ FailedAt log (n - k - 1)) := by
  induction n generalizing k with
  | zero =>
    have hempty : lastRow (log.take 0) = 0 := rfl
    rw [hempty]
    constructor
    · rintro rfl
      exact ⟨le_rfl, fun i _ hi => absurd hi (Nat.not_lt_zero i), .inl rfl⟩
    · exact fun h => (Nat.le_zero.mp h.1).symm
  | succ n ih =>
    have hlt : n < log.length := hn
    have hget : log[n]? = some log[n] := List.getElem?_eq_getElem hlt
    rw [List.take_add_one, hget, Option.toList_some]
    cases hresult : log[n] with
    | ok u =>
      -- A success ends no row.
      have hnot : ¬ FailedAt log n := by
        rintro ⟨error, herror⟩
        rw [hget, hresult] at herror
        cases herror
      rw [lastRow_concat_ok]
      constructor
      · rintro rfl
        exact ⟨Nat.zero_le _, fun i hlow hi => absurd hi (by omega), .inr hnot⟩
      · rintro ⟨-, hfailed, -⟩
        by_contra hk
        exact hnot (hfailed n (by omega) (Nat.lt_succ_self n))
    | error error =>
      -- A failure makes the row before it longer by one.
      have hfailed : FailedAt log n := ⟨error, hget.trans (congrArg some hresult)⟩
      rw [lastRow_concat_error]
      cases k with
      | zero =>
        refine ⟨fun h => by omega, ?_⟩
        rintro ⟨-, -, h | hnot⟩
        · omega
        · exact absurd hfailed hnot
      | succ k =>
        rw [Nat.add_right_cancel_iff, ih hlt.le]
        have hstart : n + 1 - (k + 1) = n - k := Nat.add_sub_add_right n 1 k
        rw [hstart, Nat.add_le_add_iff_right, Nat.add_right_cancel_iff]
        refine and_congr_right fun _ => and_congr_left fun _ => ?_
        constructor
        · intro h i hlow hi
          rcases Nat.lt_succ_iff_lt_or_eq.mp hi with hi | rfl
          · exact h i hlow hi
          · exact hfailed
        · exact fun h i hlow hi => h i hlow (Nat.lt_succ_of_lt hi)

/-- Failures in a row are followed by as many more as make the row full. -/
theorem exists_behind (log : List Result) (n : Nat) :
    ∃ more, (∀ i, n ≤ i → i < n + more → FailedAt log i) ∧ ¬ FailedAt log (n + more) := by
  classical
  have hend : ∃ more, ¬ FailedAt log (n + more) :=
    ⟨log.length, fun h => absurd h.lt_length (by omega)⟩
  refine ⟨Nat.find hend, ?_, Nat.find_spec hend⟩
  intro i hlow hi
  have hfailed := Nat.find_min hend (m := i - n) (by omega)
  rwa [not_not, Nat.add_sub_cancel' hlow] at hfailed

/-- A result ends so many failures in a row exactly when it is the failure with that number in its
row. -/
theorem lastRow_take_eq_iff_row {i k : Nat} (hi : i < log.length) (hk : 0 < k) :
    lastRow (log.take (i + 1)) = k
      ↔ ∃ start length, IsRow log start length ∧ k ≤ length ∧ i + 1 = start + k := by
  rw [lastRow_take_iff hi]
  constructor
  · rintro ⟨hle, hfailed, hbefore⟩
    obtain ⟨more, hmore, hbehind⟩ := exists_behind log (i + 1)
    refine ⟨i + 1 - k, k + more, ⟨by omega, ?_, ?_, ?_⟩, Nat.le_add_right k more, by omega⟩
    · intro j hlow hj
      rcases Nat.lt_or_ge j (i + 1) with hlt | hge
      · exact hfailed j hlow hlt
      · exact hmore j hge (by omega)
    · exact hbefore.imp_left fun h => by omega
    · have hsum : i + 1 - k + (k + more) = i + 1 + more := by omega
      rwa [hsum]
  · rintro ⟨start, length, hrow, hle, hsum⟩
    have hstart : i + 1 - k = start := by omega
    rw [hstart]
    refine ⟨by omega, ?_, hrow.before.imp_left fun h => by omega⟩
    intro j hlow hj
    exact hrow.failed j hlow (by omega)

/-- A row is given by any of its failures. -/
theorem IsRow.unique {start length start' length' i : Nat} (h : IsRow log start length)
    (h' : IsRow log start' length') (hi : start ≤ i ∧ i < start + length)
    (hi' : start' ≤ i ∧ i < start' + length') : start = start' ∧ length = length' := by
  -- A row that began or ended later would have a failure beside it.
  have hbefore {start length start' length' : Nat} (h : IsRow log start length)
      (h' : IsRow log start' length') (hi : start ≤ i) (hi' : start' ≤ i ∧ i < start' + length') :
      start ≤ start' := by
    by_contra hlt
    rcases h.before with hzero | hnot
    · omega
    · exact hnot (h'.failed _ (by omega) (by omega))
  have hbehind {start length start' length' : Nat} (h : IsRow log start length)
      (h' : IsRow log start' length') (hi : i < start + length)
      (hi' : start' ≤ i ∧ i < start' + length') : start' + length' ≤ start + length := by
    by_contra hlt
    exact h.behind (h'.failed _ (by omega) (by omega))
  have hstart := hbefore h h' hi.1 hi'
  have hstart' := hbefore h' h hi'.1 hi
  have hend := hbehind h h' hi.2 hi'
  have hend' := hbehind h' h hi'.2 hi
  omega

/-- The numbers of the failures that are the `k`-th of their rows are as many as there are rows of
that length or of a greater one. -/
theorem length_eq_ncard_rows {k : Nat} (hk : 0 < k) {numbers : List Nat} (hnodup : numbers.Nodup)
    (hmem : ∀ i, i ∈ numbers
      ↔ ∃ start length, IsRow log start length ∧ k ≤ length ∧ i + 1 = start + k) :
    numbers.length = {row : Nat × Nat | IsRow log row.1 row.2 ∧ k ≤ row.2}.ncard := by
  classical
  rw [← List.toFinset_card_of_nodup hnodup, ← Set.ncard_coe_finset]
  symm
  refine Set.ncard_congr (fun row _ => row.1 + k - 1) ?_ ?_ ?_
  · rintro ⟨start, length⟩ ⟨hrow, hle⟩
    rw [Finset.mem_coe, List.mem_toFinset, hmem]
    exact ⟨start, length, hrow, hle, by dsimp only; omega⟩
  · rintro ⟨start, length⟩ ⟨start', length'⟩ ⟨hrow, hle⟩ ⟨hrow', hle'⟩ heq
    dsimp only at hrow hle hrow' hle' heq
    obtain ⟨rfl, rfl⟩ := hrow.unique hrow' (i := start + k - 1) (by omega) (by omega)
    rfl
  · intro i hi
    rw [Finset.mem_coe, List.mem_toFinset, hmem] at hi
    obtain ⟨start, length, hrow, hle, hsum⟩ := hi
    exact ⟨(start, length), ⟨hrow, hle⟩, by dsimp only; omega⟩

end FieldTelemetry.Delivery
