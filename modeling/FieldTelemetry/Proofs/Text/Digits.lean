import FieldTelemetry.Text.Digits
import Mathlib.Tactic.Linarith
import Mathlib.Tactic.Ring

/-!
# Digits and the numbers they denote

Writing a number in digits and reading the digits gives the number back, with as many digits as the
number needs or with zeros in front of them.

## Main results

* `value_lastDigits`: the last digits of a number denote its remainder
* `value_digits`, `value_padded`: all its digits denote the number
* `digits_eq_cons`: the first digit of a positive number is not zero
* `digitOf?_toChar`, `digitOfOctet?_digitOctet`: a digit is read from its character and its octet
-/

namespace FieldTelemetry.Text

/-! ## Single digits -/

@[simp]
theorem digitOf?_toChar (d : Digit) : digitOf? d.toChar = some d := by
  revert d; decide

/-- The octet of a digit. -/
def digitOctet (d : Digit) : UInt8 := UInt8.ofNat (0x30 + d.val)

theorem utf8EncodeChar_toChar (d : Digit) :
    String.utf8EncodeChar d.toChar = [digitOctet d] := by
  revert d; decide

@[simp]
theorem digitOfOctet?_digitOctet (d : Digit) : digitOfOctet? (digitOctet d) = some d := by
  revert d; decide

theorem toChar_ne {c : Char} (h : digitOf? c = none) (d : Digit) : d.toChar ≠ c := by
  rintro rfl
  simp at h

/-! ## Values -/

theorem foldl_value (n : Nat) (ds : List Digit) :
    ds.foldl (fun n d => 10 * n + d.val) n = n * 10 ^ ds.length + value ds := by
  induction ds generalizing n with
  | nil => simp [value]
  | cons d ds ih =>
    simp only [value, List.foldl_cons, List.length_cons] at ih ⊢
    rw [ih (10 * n + d.val), ih (10 * 0 + d.val)]
    ring

@[simp]
theorem value_nil : value [] = 0 := rfl

theorem value_cons (d : Digit) (ds : List Digit) :
    value (d :: ds) = d.val * 10 ^ ds.length + value ds := by
  simp only [value, List.foldl_cons]
  rw [foldl_value]
  simp [value]

theorem value_append (ds es : List Digit) :
    value (ds ++ es) = value ds * 10 ^ es.length + value es := by
  rw [value, List.foldl_append, foldl_value]
  rfl

theorem value_lt (ds : List Digit) : value ds < 10 ^ ds.length := by
  induction ds with
  | nil => simp
  | cons d ds ih =>
    rw [value_cons, List.length_cons, pow_succ]
    have hd := d.isLt
    nlinarith [Nat.zero_le (10 ^ ds.length)]

/-! ## Last digits -/

theorem lastDigits_append (count n : Nat) (tail : List Digit) :
    lastDigits count n tail = lastDigits count n [] ++ tail := by
  induction count generalizing n tail with
  | zero => rfl
  | succ count ih =>
    rw [lastDigits, ih, lastDigits, ih _ [Fin.ofNat 10 n]]
    simp

theorem lastDigits_succ (count n : Nat) :
    lastDigits (count + 1) n [] = lastDigits count (n / 10) [] ++ [Fin.ofNat 10 n] := by
  rw [lastDigits, lastDigits_append]

@[simp]
theorem length_lastDigits (count n : Nat) : (lastDigits count n []).length = count := by
  induction count generalizing n with
  | zero => rfl
  | succ count ih => simp [lastDigits_succ, ih]

/-- The last digits of a number denote its remainder by a power of ten. -/
theorem value_lastDigits (count n : Nat) : value (lastDigits count n []) = n % 10 ^ count := by
  induction count generalizing n with
  | zero => simp [lastDigits, Nat.mod_one]
  | succ count ih =>
    rw [lastDigits_succ, value_append, ih, pow_succ, mul_comm (10 ^ count) 10, Nat.mod_mul]
    simp [value, Fin.ofNat]
    ring

/-! ## The number of digits -/

theorem lt_pow_digitCountWithin {fuel n : Nat} (h : n < 2 ^ fuel) :
    n < 10 ^ digitCountWithin fuel n := by
  induction fuel generalizing n with
  | zero =>
    simp only [pow_zero] at h
    simp [digitCountWithin]
    omega
  | succ fuel ih =>
    rw [digitCountWithin]
    split
    · omega
    · have hn : n / 10 < 2 ^ fuel := by
        rw [pow_succ] at h
        omega
      have := ih hn
      rw [pow_succ]
      omega

theorem pow_digitCountWithin_le (fuel : Nat) {n : Nat} (h : 0 < n) :
    10 ^ (digitCountWithin fuel n - 1) ≤ n := by
  induction fuel generalizing n with
  | zero => simpa [digitCountWithin] using Nat.succ_le_of_lt h
  | succ fuel ih =>
    rw [digitCountWithin]
    split
    · simpa using Nat.succ_le_of_lt h
    · have hn : 0 < n / 10 := by omega
      have hpos : 1 ≤ digitCountWithin fuel (n / 10) := by
        cases fuel with
        | zero => simp [digitCountWithin]
        | succ fuel => rw [digitCountWithin]; split <;> omega
      have := ih hn
      rw [Nat.add_sub_cancel]
      obtain ⟨k, hk⟩ := Nat.exists_eq_add_of_le hpos
      rw [hk] at this ⊢
      rw [Nat.add_sub_cancel_left] at this
      rw [Nat.add_comm, pow_succ]
      omega

/-- A number is less than ten to the number of its digits. -/
theorem lt_pow_digitCount (n : Nat) : n < 10 ^ digitCount n :=
  lt_pow_digitCountWithin (Nat.lt_log2_self (n := n))

/-- A positive number has no more digits than it needs. -/
theorem pow_digitCount_le {n : Nat} (h : 0 < n) : 10 ^ (digitCount n - 1) ≤ n :=
  pow_digitCountWithin_le _ h

theorem digitCount_pos (n : Nat) : 0 < digitCount n := by
  rw [digitCount, digitCountWithin]
  split <;> omega

theorem digitCount_le {n count : Nat} (hc : 0 < count) (h : n < 10 ^ count) :
    digitCount n ≤ count := by
  rcases Nat.eq_zero_or_pos n with rfl | hn
  · have : digitCount 0 = 1 := by decide
    omega
  · by_contra hlt
    have := pow_digitCount_le hn
    have hle : 10 ^ count ≤ 10 ^ (digitCount n - 1) :=
      Nat.pow_le_pow_right (by decide) (by omega)
    omega

/-! ## All digits -/

@[simp]
theorem length_digits (n : Nat) : (digits n).length = digitCount n := by simp [digits]

theorem digits_ne_nil (n : Nat) : digits n ≠ [] := by
  intro h
  have := length_digits n
  have := digitCount_pos n
  simp_all

/-- The digits of a number denote it. -/
@[simp]
theorem value_digits (n : Nat) : value (digits n) = n := by
  rw [digits, value_lastDigits, Nat.mod_eq_of_lt (lt_pow_digitCount n)]

/-- The digits of a number behind zeros denote it. -/
theorem value_padded (width n : Nat) :
    value (lastDigits (max width (digitCount n)) n []) = n := by
  rw [value_lastDigits, Nat.mod_eq_of_lt]
  exact (lt_pow_digitCount n).trans_le (Nat.pow_le_pow_right (by decide) (le_max_right ..))

theorem digits_zero : digits 0 = [0] := by decide

/-- The first digit of a positive number is not zero. -/
theorem digits_eq_cons {n : Nat} (h : 0 < n) : ∃ d ds, digits n = d :: ds ∧ d ≠ 0 := by
  cases hds : digits n with
  | nil => exact absurd hds (digits_ne_nil n)
  | cons d ds =>
    refine ⟨d, ds, rfl, ?_⟩
    rintro rfl
    -- With a zero in front the number would be too small for so many digits.
    have hlen := length_digits n
    have hval := value_digits n
    have hle := pow_digitCount_le h
    rw [hds] at hlen hval
    rw [value_cons] at hval
    have hlt := value_lt ds
    simp only [List.length_cons] at hlen
    rw [← hlen, Nat.add_sub_cancel] at hle
    simp at hval
    omega

end FieldTelemetry.Text
