import FieldTelemetry.Number.Shortest
import FieldTelemetry.Proofs.Text.Digits
import Mathlib.Algebra.Order.Field.Basic
import Mathlib.Data.Rat.Cast.Order
import Mathlib.Tactic.FieldSimp
import Mathlib.Tactic.Linarith
import Mathlib.Tactic.NormNum
import Mathlib.Tactic.Positivity
import Mathlib.Tactic.Ring

/-!
# The search for the shortest decimal

Among seventeen grids one is fine enough to have a multiple between a number and the upper end of
its interval, so the search for the shortest decimal of a positive number ends with a positive one.
What the search finds is not much larger than the number.

## Main results

* `Interval.search_ne_zero`: a search with a fine grid in reach finds a multiple
* `Format.shortest_digits`: the shortest decimal begins with a digit that is not zero
* `Format.shortest_exponent_le`: the exponent of the shortest decimal is small when the number is
-/

namespace FieldTelemetry.Binary

open Text

/-! ## Powers of ten -/

theorem powerOfTen_pos (scale : Int) :
    0 < (powerOfTen 1 scale).1 ∧ 0 < (powerOfTen 1 scale).2 := by
  simp [powerOfTen]

/-- The two parts of a power of ten are its numerator and its denominator. -/
theorem powerOfTen_ratio (scale : Int) :
    ((powerOfTen 1 scale).1 : ℚ) = 10 ^ scale * (powerOfTen 1 scale).2 := by
  rcases Int.eq_nat_or_neg scale with ⟨n, rfl | rfl⟩
  · simp [powerOfTen]
  · simp [powerOfTen]

/-- The leading power of ten does not exceed a quotient. -/
theorem leadingDecimalExponent_le (num den : Nat) (hnum : 0 < num) :
    (10 : ℚ) ^ leadingDecimalExponent num den * den ≤ num := by
  have hratio := powerOfTen_ratio ((digitCount num : Int) - digitCount den)
  obtain ⟨-, hpos⟩ := powerOfTen_pos ((digitCount num : Int) - digitCount den)
  rw [leadingDecimalExponent]
  dsimp only
  -- The estimate by the numbers of digits is right, or one too high.
  split
  · rename_i h
    have hcast : ((powerOfTen 1 ((digitCount num : Int) - digitCount den)).1 : ℚ) * den
        ≤ num * (powerOfTen 1 ((digitCount num : Int) - digitCount den)).2 := by
      exact_mod_cast h
    rw [hratio] at hcast
    have hpos' : (0 : ℚ) < (powerOfTen 1 ((digitCount num : Int) - digitCount den)).2 := by
      exact_mod_cast hpos
    refine le_of_mul_le_mul_right ?_ hpos'
    linarith
  · have hlow : (10 : ℚ) ^ ((digitCount num : Int) - 1) ≤ num := by
      have := pow_digitCount_le hnum
      have hcount := digitCount_pos num
      rw [← Nat.cast_one, ← Nat.cast_sub hcount, zpow_natCast]
      exact_mod_cast this
    have hhigh : (den : ℚ) ≤ 10 ^ (digitCount den : Int) := by
      rw [zpow_natCast]
      exact_mod_cast (lt_pow_digitCount den).le
    calc (10 : ℚ) ^ ((digitCount num : Int) - digitCount den - 1) * den
        ≤ 10 ^ ((digitCount num : Int) - digitCount den - 1) * 10 ^ (digitCount den : Int) :=
          mul_le_mul_of_nonneg_left hhigh (zpow_nonneg (by norm_num) _)
      _ = 10 ^ ((digitCount num : Int) - 1) := by
          rw [← zpow_add₀ (by norm_num)]
          congr 1
          ring
      _ ≤ num := hlow

/-! ## Multiples in an interval -/

namespace Interval

/-- A grid that is finer than the upper half of an interval has a multiple in it. -/
theorem multiple?_isSome {i : Interval} {scale : Int} (hlow : i.low < i.middle) (hden : 0 < i.den)
    (hgrid : i.middle * (powerOfTen 1 scale).2 + i.den * (powerOfTen 1 scale).1
      < i.high * (powerOfTen 1 scale).2) :
    ∃ n, i.multiple? scale = some n := by
  obtain ⟨hunit, hunitDen⟩ := powerOfTen_pos scale
  have hcell : 0 < i.den * (powerOfTen 1 scale).1 := Nat.mul_pos hden hunit
  generalize hbelow : i.middle * (powerOfTen 1 scale).2 / (i.den * (powerOfTen 1 scale).1) = below
  have hle : below * (i.den * (powerOfTen 1 scale).1) ≤ i.middle * (powerOfTen 1 scale).2 := by
    rw [← hbelow]
    exact Nat.div_mul_le_self ..
  have hlt : i.middle * (powerOfTen 1 scale).2
      < (below + 1) * (i.den * (powerOfTen 1 scale).1) := by
    rw [← hbelow, mul_comm (_ + 1)]
    exact Nat.lt_mul_div_succ _ hcell
  have habove :
      i.contains ((below + 1) * (powerOfTen 1 scale).1) (powerOfTen 1 scale).2 = true := by
    have hx : (below + 1) * (powerOfTen 1 scale).1 * i.den
        = (below + 1) * (i.den * (powerOfTen 1 scale).1) := by ring
    have hx' : (below + 1) * (i.den * (powerOfTen 1 scale).1)
        = below * (i.den * (powerOfTen 1 scale).1) + i.den * (powerOfTen 1 scale).1 := by ring
    have hlow' : i.low * (powerOfTen 1 scale).2 < i.middle * (powerOfTen 1 scale).2 :=
      Nat.mul_lt_mul_of_pos_right hlow hunitDen
    rw [contains, hx]
    split
    · rw [Bool.and_eq_true, decide_eq_true_eq, decide_eq_true_eq]
      omega
    · rw [Bool.and_eq_true, decide_eq_true_eq, decide_eq_true_eq]
      omega
  simp only [multiple?, hbelow, habove, Bool.and_true, if_true]
  -- The upper neighbour is a candidate, so the search has one in every case.
  split
  · split
    · exact ⟨_, rfl⟩
    · split <;> exact ⟨_, rfl⟩
  · exact ⟨_, rfl⟩

/-- Zero is in no interval of a positive number. -/
theorem not_contains_zero {i : Interval} (hlow : 0 < i.low) {den : Nat} (hden : 0 < den) :
    i.contains 0 den = false := by
  have hpos : 0 < i.low * den := Nat.mul_pos hlow hden
  rw [contains]
  -- An interval may be with or without its ends.
  split
  · simp
    omega
  · simp

theorem multiple?_ne_zero {i : Interval} (hlow : 0 < i.low) {scale : Int} {n : Nat}
    (h : i.multiple? scale = some n) : n ≠ 0 := by
  obtain ⟨-, hunitDen⟩ := powerOfTen_pos scale
  rw [multiple?] at h
  dsimp only at h
  rintro rfl
  generalize i.middle * (powerOfTen 1 scale).2 / (i.den * (powerOfTen 1 scale).1) = below at h
  -- Both neighbours of the middle are looked at, of which the lower may be zero.
  rcases Nat.eq_zero_or_pos below with rfl | hbelow
  · simp only [Nat.zero_mul, not_contains_zero hlow hunitDen, Bool.false_and, Bool.false_eq_true,
      if_false] at h
    split at h <;> simp at h
  · split at h
    · split at h
      · simp only [Option.some.injEq] at h
        omega
      · split at h
        · simp at h
        · simp only [Option.some.injEq] at h
          omega
    · split at h
      · simp only [Option.some.injEq] at h
        omega
      · split at h <;> simp at h

/-- A search with a fine grid in reach finds a multiple. -/
theorem search_ne_zero {i : Interval} (hlow : 0 < i.low) (grids : Nat) {scale : Int} {n : Nat}
    (h : i.multiple? (scale - grids) = some n) : (i.search (grids + 1) scale).1 ≠ 0 := by
  -- The induction is on the number of finer grids.
  induction grids generalizing scale with
  | zero =>
    have hn := multiple?_ne_zero hlow h
    rw [Nat.cast_zero, sub_zero] at h
    rw [search, h]
    simp [hn]
  | succ grids ih =>
    have hrest : (i.search (grids + 1) (scale - 1)).1 ≠ 0 := by
      refine ih ?_
      rw [← h]
      congr 1
      push_cast
      ring
    rw [search]
    cases hfirst : i.multiple? scale with
    | none => exact hrest
    | some m =>
      have hm := multiple?_ne_zero hlow hfirst
      simp [hm]

end Interval

/-! ## Shortest decimals -/

theorem dropTrailingZeros_cons {d : Digit} (hd : d ≠ 0) (ds : List Digit) :
    dropTrailingZeros (d :: ds) = d :: dropTrailingZeros ds := by
  rw [dropTrailingZeros, dropTrailingZeros, List.reverse_cons, List.dropWhile_append]
  -- All digits after the first may be zero.
  split
  · rename_i h
    rw [List.isEmpty_iff] at h
    simp [h, hd]
  · simp

namespace Format

variable (format : Format) {m : Nat} (q : Int)

theorem interval_low_pos (hm : 0 < m) : 0 < (format.interval m q).low := by
  have hunit : 0 < 2 ^ (q - 2).toNat := Nat.pow_pos (by decide)
  rw [interval]
  dsimp only
  split <;> exact Nat.mul_pos (by omega) hunit

theorem interval_low_lt (hm : 0 < m) :
    (format.interval m q).low < (format.interval m q).middle := by
  have hunit : 0 < 2 ^ (q - 2).toNat := Nat.pow_pos (by decide)
  rw [interval]
  dsimp only
  split <;> exact Nat.mul_lt_mul_of_pos_right (by omega) hunit

/-- The seventeenth grid below the leading power of ten of a number of at most fifty bits is finer
than the upper half of its interval, which is two units wide. -/
theorem gap_lt {m unit den num unitDen : Nat} {scale : Int} (hlt : m < 2 ^ 50) (hunit : 0 < unit)
    (hpos : 0 < unitDen) (hlead : (10 : ℚ) ^ scale * den ≤ (4 * m * unit : Nat))
    (hratio : (num : ℚ) = 10 ^ (scale - 16) * unitDen) : den * num < 2 * unit * unitDen := by
  have hstep : (10 : ℚ) ^ (scale - 16) = 10 ^ scale / 10 ^ 16 := by
    rw [zpow_sub₀ (by norm_num)]
    norm_cast
  have hm : (m : ℚ) ≤ 2 ^ 50 := by exact_mod_cast hlt.le
  have hunit' : (0 : ℚ) < unit := by exact_mod_cast hunit
  have hpos' : (0 : ℚ) < unitDen := by exact_mod_cast hpos
  push_cast at hlead
  have hgap : (den : ℚ) * num < 2 * unit * unitDen := by
    rw [hratio, hstep]
    -- What matters is that four times two to the fiftieth is below twice ten to the sixteenth.
    calc (den : ℚ) * (10 ^ scale / 10 ^ 16 * unitDen)
        = (10 ^ scale * den * unitDen / 10 ^ 16 : ℚ) := by ring
      _ ≤ (4 * m * unit * unitDen / 10 ^ 16 : ℚ) := by gcongr
      _ ≤ (4 * 2 ^ 50 * unit * unitDen / 10 ^ 16 : ℚ) := by gcongr
      _ = (4 * 2 ^ 50 / 10 ^ 16 * (unit * unitDen) : ℚ) := by ring
      _ < (2 * (unit * unitDen) : ℚ) :=
          mul_lt_mul_of_pos_right (by norm_num) (mul_pos hunit' hpos')
      _ = (2 * unit * unitDen : ℚ) := by ring
  exact_mod_cast hgap

/-- The last of seventeen grids has a multiple between a number of at most fifty bits and the upper
end of its interval. -/
theorem interval_multiple? (hm : 0 < m) (hlt : m < 2 ^ 50) :
    ∃ n, (format.interval m q).multiple?
      (leadingDecimalExponent (format.interval m q).middle (format.interval m q).den - 16)
        = some n := by
  have hden : 0 < (format.interval m q).den := Nat.pow_pos (by decide)
  refine Interval.multiple?_isSome (interval_low_lt format q hm) hden ?_
  have hunit : 0 < 2 ^ (q - 2).toNat := Nat.pow_pos (by decide)
  have hmiddle : (format.interval m q).middle = 4 * m * 2 ^ (q - 2).toNat := rfl
  have hhigh : (format.interval m q).high = (4 * m + 2) * 2 ^ (q - 2).toNat := rfl
  have hlead := leadingDecimalExponent_le (format.interval m q).middle (format.interval m q).den
    (by rw [hmiddle]; positivity)
  generalize hscale : leadingDecimalExponent (format.interval m q).middle (format.interval m q).den
    = scale at hlead ⊢
  generalize (format.interval m q).den = den at hden hlead ⊢
  have hratio := powerOfTen_ratio (scale - 16)
  obtain ⟨-, hpos⟩ := powerOfTen_pos (scale - 16)
  rw [hhigh]
  rw [hmiddle] at hlead ⊢
  generalize 2 ^ (q - 2).toNat = unit at hunit hlead ⊢
  generalize (powerOfTen 1 (scale - 16)).1 = num at hratio ⊢
  generalize (powerOfTen 1 (scale - 16)).2 = unitDen at hratio hpos ⊢
  have hgap : den * num < 2 * unit * unitDen := gap_lt hlt hunit hpos hlead hratio
  calc 4 * m * unit * unitDen + den * num < 4 * m * unit * unitDen + 2 * unit * unitDen := by omega
    _ = (4 * m + 2) * unit * unitDen := by ring

/-- The shortest decimal of a positive number begins with a digit that is not zero. -/
theorem shortest_digits (hm : 0 < m) (hlt : m < 2 ^ 50) :
    ∃ d ds, (format.shortest m q).digits = d :: ds ∧ d ≠ 0 := by
  obtain ⟨n, hn⟩ := interval_multiple? format q hm hlt
  have hfound := Interval.search_ne_zero (interval_low_pos format q hm) 16 hn
  rw [shortest]
  dsimp only
  generalize (format.interval m q).search (16 + 1) (leadingDecimalExponent
    (format.interval m q).middle (format.interval m q).den) = found at hfound ⊢
  obtain ⟨d, ds, hds, hd⟩ := digits_eq_cons (Nat.pos_of_ne_zero hfound)
  exact ⟨d, dropTrailingZeros ds, by rw [Decimal.ofScaled, hds, dropTrailingZeros_cons hd], hd⟩

end Format

/-! ## Exponents -/

theorem leadingDecimalExponent_le_digitCount (num den : Nat) :
    leadingDecimalExponent num den ≤ digitCount num := by
  rw [leadingDecimalExponent]
  dsimp only
  split <;> omega

namespace Interval

variable {i : Interval}

/-- A multiple that is found is one of the neighbours of the middle. -/
theorem multiple?_le {scale : Int} {n : Nat} (h : i.multiple? scale = some n) :
    n ≤ i.middle * (powerOfTen 1 scale).2 + 1 := by
  have hbelow : i.middle * (powerOfTen 1 scale).2 / (i.den * (powerOfTen 1 scale).1)
      ≤ i.middle * (powerOfTen 1 scale).2 := Nat.div_le_self ..
  rw [multiple?] at h
  dsimp only at h
  generalize i.middle * (powerOfTen 1 scale).2 / (i.den * (powerOfTen 1 scale).1) = below
    at h hbelow
  split at h
  · split at h
    · cases h
      omega
    · split at h
      · cases h
        omega
      · cases h
        omega
  · split at h
    · cases h
      omega
    · split at h
      · cases h
        omega
      · cases h

theorem search_le (grids : Nat) (scale : Int) :
    (i.search grids scale).2 ≤ scale
      ∧ (i.search grids scale).1 ≤ i.middle * (powerOfTen 1 (i.search grids scale).2).2 + 1 := by
  -- The induction is on the number of grids, which get finer.
  induction grids generalizing scale with
  | zero => exact ⟨le_rfl, Nat.zero_le _⟩
  | succ grids ih =>
    have hfiner := ih (scale - 1)
    rw [search]
    cases hfirst : i.multiple? scale with
    | none => exact ⟨hfiner.1.trans (by omega), hfiner.2⟩
    | some n =>
      dsimp only
      split
      · exact ⟨hfiner.1.trans (by omega), hfiner.2⟩
      · exact ⟨le_rfl, multiple?_le hfirst⟩

end Interval

theorem Decimal.exponent_ofScaled_le {n count : Nat} {scale : Int} {middle : Nat}
    (hmiddle : middle < 10 ^ count) (hn : n ≤ middle * (powerOfTen 1 scale).2 + 1) :
    (Decimal.ofScaled n scale).exponent ≤ max scale 0 + count := by
  have hlt : n < 10 ^ (count + (-scale).toNat + 1) := by
    calc n ≤ middle * 10 ^ (-scale).toNat + 1 := hn
      _ ≤ middle * 10 ^ (-scale).toNat + 10 ^ (-scale).toNat :=
          Nat.add_le_add_left (Nat.one_le_pow _ _ (by decide)) _
      _ = (middle + 1) * 10 ^ (-scale).toNat := by ring
      _ ≤ 10 ^ count * 10 ^ (-scale).toNat := Nat.mul_le_mul_right _ hmiddle
      _ = 10 ^ (count + (-scale).toNat) := (Nat.pow_add ..).symm
      _ < 10 ^ (count + (-scale).toNat + 1) := Nat.pow_lt_pow_right (by decide) (Nat.lt_succ_self _)
  have hdigits := digitCount_le (Nat.succ_pos _) hlt
  have hexponent : (Decimal.ofScaled n scale).exponent = scale + ((digitCount n : Int) - 1) := by
    rw [Decimal.ofScaled, length_digits]
  omega

/-- The exponent of the shortest decimal of a number is small when the number is. -/
theorem Format.shortest_exponent_le (format : Format) {m count : Nat} {q : Int}
    (h : 4 * m * 2 ^ (q - 2).toNat < 10 ^ count) (hcount : 0 < count) :
    (format.shortest m q).exponent ≤ 2 * count := by
  have hmiddle : (format.interval m q).middle < 10 ^ count := h
  have hdigits := digitCount_le hcount hmiddle
  have hlead := leadingDecimalExponent_le_digitCount (format.interval m q).middle
    (format.interval m q).den
  obtain ⟨hscale, hn⟩ := (format.interval m q).search_le 17
    (leadingDecimalExponent (format.interval m q).middle (format.interval m q).den)
  have hexponent := Decimal.exponent_ofScaled_le hmiddle hn
  have hshortest : format.shortest m q = .ofScaled
      ((format.interval m q).search 17 (leadingDecimalExponent (format.interval m q).middle
        (format.interval m q).den)).1
      ((format.interval m q).search 17 (leadingDecimalExponent (format.interval m q).middle
        (format.interval m q).den)).2 := rfl
  rw [hshortest]
  omega

end FieldTelemetry.Binary
