import FieldTelemetry.Number.Binary
import Mathlib.Algebra.Order.Field.Power
import Mathlib.Algebra.Order.Field.Rat
import Mathlib.Algebra.Order.Group.Nat
import Mathlib.Algebra.Order.Ring.Nat
import Mathlib.Data.Nat.Log
import Mathlib.Data.Rat.Cast.Order
import Mathlib.Tactic.Positivity
import Mathlib.Tactic.Ring

/-!
# Rounding within a format

A quotient is rounded to a number of the format or to infinity, and never to a NaN. When it is far
below the largest number of the format it is rounded to a finite number, and so is the product of
two such numbers.

## Main results

* `ratio_lt`: a quotient and its leading bit
* `Format.round_fits`: a rounded quotient is a number of the format
* `Format.round_ne_infinite`: a quotient with a small numerator does not exceed the format
* `Format.round_one`: the size of a rounded natural number
* `Format.multiply_ne_infinite`: a product of rounded natural numbers does not exceed the format
* `Binary32.isNaN_ofQuotient`, `Binary32.isNaN_narrow`: rounding gives no NaN
-/

namespace FieldTelemetry.Binary

/-- The exponent of the leading bit of a quotient is at most that of its numerator. -/
theorem leadingExponent_le (num den : Nat) : leadingExponent num den ≤ num.log2 := by
  rw [leadingExponent]
  dsimp only
  split <;> omega

theorem le_leadingExponent (num den : Nat) :
    (num.log2 : Int) - den.log2 - 1 ≤ leadingExponent num den := by
  rw [leadingExponent]
  dsimp only
  split <;> omega

theorem nearestEven_le (num den : Nat) : nearestEven num den ≤ num / den + 1 := by
  rw [nearestEven]
  split
  · omega
  · split <;> omega

theorem unscale_snd_pos {den : Nat} (hden : 0 < den) (num : Nat) (q : Int) :
    0 < (unscale num den q).2 := by
  rw [unscale, Nat.pow_eq, Nat.pow_eq]
  split
  · positivity
  · exact hden

/-- Scaling a quotient divides it by a power of two. -/
theorem unscale_ratio (num den : Nat) (q : Int) :
    ((unscale num den q).1 : ℚ) / (unscale num den q).2 = num / den / 2 ^ q := by
  rw [unscale, Nat.pow_eq, Nat.pow_eq]
  split
  · rename_i hq
    obtain ⟨n, rfl⟩ := Int.eq_ofNat_of_zero_le hq
    push_cast
    rw [Int.toNat_natCast, zpow_natCast, div_div]
  · rename_i hq
    obtain ⟨n, rfl⟩ := Int.exists_eq_neg_ofNat (Int.not_le.mp hq).le
    push_cast
    rw [neg_neg, Int.toNat_natCast, zpow_neg, zpow_natCast, div_inv_eq_mul, div_mul_eq_mul_div]

/-- A quotient is below the power of two after that of its leading bit. -/
theorem ratio_lt {num den : Nat} (hden : 0 < den) :
    (num : ℚ) / den < 2 ^ (leadingExponent num den + 1) := by
  have hestimate : (num : ℚ) / den < 2 ^ ((num.log2 : Int) - den.log2 + 1) := by
    have hnum : (num : ℚ) < 2 ^ (num.log2 + 1) := by exact_mod_cast Nat.lt_log2_self
    have hle : (2 : ℚ) ^ den.log2 ≤ den := by exact_mod_cast Nat.log2_self_le hden.ne'
    calc (num : ℚ) / den < 2 ^ (num.log2 + 1) / 2 ^ den.log2 := by gcongr
      _ = 2 ^ ((num.log2 : Int) - den.log2 + 1) := by
        rw [← zpow_natCast, ← zpow_natCast, ← zpow_sub₀ (by norm_num)]
        congr 1
        push_cast
        ring
  rw [leadingExponent]
  dsimp only
  split
  · exact hestimate
  · rename_i hbelow
    -- The estimate is one too large, for the quotient is below that power of two.
    have hone : (num : ℚ) / den / 2 ^ ((num.log2 : Int) - den.log2) < 1 := by
      have hsnd := unscale_snd_pos hden num ((num.log2 : Int) - den.log2)
      rw [← unscale_ratio, div_lt_one (by exact_mod_cast hsnd)]
      exact_mod_cast Nat.lt_of_not_le hbelow
    rw [div_lt_one (by positivity)] at hone
    simpa using hone

theorem nearestEven_le_of_ratio_lt {n d bound : Nat} (hd : 0 < d) (h : (n : ℚ) / d < bound) :
    nearestEven n d ≤ bound := by
  rw [div_lt_iff₀ (by exact_mod_cast hd)] at h
  have hlt : n < bound * d := by exact_mod_cast h
  have hdiv := (Nat.div_lt_iff_lt_mul hd).mpr hlt
  exact (nearestEven_le n d).trans hdiv

/-- A natural number in units that are `width` bits below its leading bit has at most so many bits
and two more. -/
theorem nearestEven_unscale_le {num width : Nat} {q : Int}
    (hq : (num.log2 : Int) ≤ q + width) :
    nearestEven (unscale num 1 q).1 (unscale num 1 q).2 ≤ 2 ^ (width + 1) := by
  have hlt : num < 2 ^ (num.log2 + 1) := Nat.lt_log2_self
  refine (nearestEven_le _ _).trans ?_
  rw [unscale]
  split
  · rename_i hpos
    obtain ⟨n, rfl⟩ := Int.eq_ofNat_of_zero_le hpos
    have hdiv : num / (1 * 2 ^ n) < 2 ^ (width + 1) := by
      rw [Nat.one_mul, Nat.div_lt_iff_lt_mul (by positivity), ← Nat.pow_add]
      exact hlt.trans_le (Nat.pow_le_pow_right (by decide) (by omega))
    exact hdiv
  · have hmul : num * 2 ^ (-q).toNat < 2 ^ (num.log2 + 1) * 2 ^ (-q).toNat :=
      Nat.mul_lt_mul_of_pos_right hlt (by positivity)
    rw [← Nat.pow_add] at hmul
    rw [Nat.div_one]
    exact hmul.trans_le (Nat.pow_le_pow_right (by decide) (by omega))

namespace Format

variable (format : Format)

/-- What a quotient other than zero is rounded to, unless it exceeds the format. The significand is
that of the exponent `q`, or it has one bit too many and is halved. -/
theorem round_cases {num : Nat} (den : Nat) (hnum : num ≠ 0) :
    ∃ q m r, q = max (leadingExponent num den - (format.precision - 1 : Int)) format.minExponent
      ∧ (m = nearestEven (unscale num den q).1 (unscale num den q).2 ∧ m ≠ 2 ^ format.precision
        ∨ m = 2 ^ (format.precision - 1)) ∧ q ≤ r ∧ r ≤ q + 1
      ∧ format.round num den = if format.maxExponent < r then .infinite else .finite m r := by
  rw [round, if_neg hnum]
  dsimp only
  split
  · exact ⟨_, _, _, rfl, .inr rfl, by omega, le_rfl, rfl⟩
  · rename_i hbits
    exact ⟨_, _, _, rfl, .inl ⟨rfl, hbits⟩, le_rfl, by omega, rfl⟩

/-- A quotient with a small numerator does not exceed the format. -/
theorem round_ne_infinite (hformat : format.minExponent < format.maxExponent) {num : Nat}
    (den : Nat) (hnum : (num.log2 : Int) + 2 ≤ format.maxExponent + format.precision) :
    format.round num den ≠ .infinite := by
  by_cases hzero : num = 0
  · rw [round, if_pos hzero]
    exact Magnitude.noConfusion
  · obtain ⟨q, m, r, hq, -, -, hr, hround⟩ := format.round_cases den hzero
    have hlead := leadingExponent_le num den
    rw [hround, if_neg (by omega)]
    exact Magnitude.noConfusion

/-- The size of a rounded natural number: two bits more than the precision, at an exponent that
leaves room for the precision below the leading bit. -/
theorem round_one (hmin : format.minExponent + format.precision ≤ 0)
    (hformat : format.minExponent < format.maxExponent) {num : Nat} (hzero : num ≠ 0)
    (hnum : (num.log2 : Int) + 2 ≤ format.maxExponent + format.precision) :
    ∃ m r, format.round num 1 = .finite m r ∧ m ≤ 2 ^ (format.precision + 1)
      ∧ r ≤ num.log2 + 2 - format.precision := by
  obtain ⟨q, m, r, hq, hm, -, hr, hround⟩ := format.round_cases 1 hzero
  have hhigh := leadingExponent_le num 1
  have hlow := le_leadingExponent num 1
  have hone : Nat.log2 1 = 0 := by decide
  refine ⟨m, r, ?_, ?_, by omega⟩
  · rw [hround, if_neg (by omega)]
  · rcases hm with ⟨rfl, -⟩ | rfl
    · exact nearestEven_unscale_le (by omega)
    · exact Nat.pow_le_pow_right (by decide) (by omega)

/-- The product of two rounded natural numbers does not exceed the format when their bits together
are well below its range. -/
theorem multiply_ne_infinite (hmin : format.minExponent + format.precision ≤ 0)
    (hformat : format.minExponent < format.maxExponent) {a b : Nat} (ha : a ≠ 0) (hb : b ≠ 0)
    (hbits : (a.log2 : Int) + b.log2 + 8 ≤ format.maxExponent)
    (hprecision : 2 * (format.precision : Int) + 4 ≤ format.maxExponent) :
    format.multiply (format.round a 1) (format.round b 1) ≠ .infinite := by
  obtain ⟨m, q, hm, hmle, hq⟩ := format.round_one hmin hformat ha (by omega)
  obtain ⟨n, r, hn, hnle, hr⟩ := format.round_one hmin hformat hb (by omega)
  have hproduct : m * n ≤ 2 ^ (2 * format.precision + 2) := by
    calc m * n ≤ 2 ^ (format.precision + 1) * 2 ^ (format.precision + 1) := Nat.mul_le_mul hmle hnle
      _ = 2 ^ (2 * format.precision + 2) := by ring
  have hlog {k bits : Nat} (h : k ≤ 2 ^ bits) : k.log2 ≤ bits := by
    rcases Nat.eq_zero_or_pos k with rfl | hpos
    · exact Nat.zero_le _
    · exact Nat.lt_succ_iff.mp ((Nat.log2_lt hpos.ne').mpr
        (h.trans_lt (Nat.pow_lt_pow_right (by decide) (Nat.lt_succ_self _))))
  rw [hm, hn, multiply, roundDyadic, unscale]
  dsimp only
  split
  · have := hlog hproduct
    exact format.round_ne_infinite hformat _ (by push_cast at *; omega)
  · have hscaled := Nat.mul_le_mul_right (2 ^ (- -(q + r)).toNat) hproduct
    rw [← Nat.pow_add] at hscaled
    have := hlog hscaled
    rw [Nat.pow_eq]
    exact format.round_ne_infinite hformat _ (by push_cast at *; omega)

/-- A rounded quotient is a number of the format. -/
theorem round_fits (hprecision : 0 < format.precision) {num den m : Nat} {r : Int}
    (hden : 0 < den) (h : format.round num den = .finite m r) :
    m < 2 ^ format.precision ∧ (m = 0 ∨ r ≤ format.maxExponent) := by
  by_cases hzero : num = 0
  · rw [round, if_pos hzero] at h
    cases h
    exact ⟨by positivity, .inl rfl⟩
  · obtain ⟨q, m', r', hq, hm, -, -, hround⟩ := format.round_cases den hzero
    rw [hround] at h
    split at h
    · cases h
    · rename_i hr
      cases h
      refine ⟨?_, .inr (Int.not_lt.mp hr)⟩
      rcases hm with ⟨hm, hbits⟩ | rfl
      · have hbelow : (num : ℚ) / den / 2 ^ q < 2 ^ format.precision := by
          rw [div_lt_iff₀ (by positivity), ← zpow_natCast, ← zpow_add₀ (by norm_num)]
          exact (ratio_lt hden).trans_le (zpow_le_zpow_right₀ (by norm_num) (by omega))
        rw [← unscale_ratio] at hbelow
        have hle : nearestEven (unscale num den q).1 (unscale num den q).2
            ≤ 2 ^ format.precision :=
          nearestEven_le_of_ratio_lt (unscale_snd_pos hden num q) (by exact_mod_cast hbelow)
        exact lt_of_le_of_ne (hm ▸ hle) hbits
      · exact Nat.pow_lt_pow_right (by decide) (by omega)

end Format

end FieldTelemetry.Binary

namespace FieldTelemetry.Binary32

open Binary

/-! ## Numbers of the single format -/

/-- A magnitude of the single format with a sign is not a NaN. -/
theorem isNaN_ofMagnitude (negative : Bool) {magnitude : Magnitude}
    (h : ∀ m q, magnitude = .finite m q → m < 2 ^ 24 ∧ (m = 0 ∨ q ≤ 104)) :
    (ofMagnitude negative magnitude).isNaN = false := by
  cases magnitude with
  | infinite => cases negative <;> rfl
  | finite m q =>
    obtain ⟨hm, hq⟩ := h m q rfl
    have hexponent : (ofMagnitude negative (.finite m q)).exponentBits ≠ 255 := by
      simp only [ofMagnitude, exponentBits]
      split <;> cases negative <;> simp <;> omega
    rw [isNaN, Bool.and_eq_false_iff]
    exact .inl (beq_eq_false_iff_ne.mpr hexponent)

/-- The number nearest to a quotient is not a NaN. -/
theorem isNaN_ofQuotient (negative : Bool) (num : Nat) {den : Nat} (hden : 0 < den) :
    (ofQuotient negative num den).isNaN = false :=
  isNaN_ofMagnitude negative fun _ _ => Format.round_fits .single (by decide) hden

/-- The number nearest to a magnitude of a wider format is not a NaN. -/
theorem isNaN_narrow (negative : Bool) (magnitude : Magnitude) :
    (narrow negative magnitude).isNaN = false := by
  cases magnitude with
  | infinite => cases negative <;> rfl
  | finite m q =>
    have hden := unscale_snd_pos Nat.one_pos m (-q)
    exact isNaN_ofMagnitude negative fun _ _ => Format.round_fits .single (by decide) hden

end FieldTelemetry.Binary32
