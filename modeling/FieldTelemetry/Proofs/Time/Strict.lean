import FieldTelemetry.Proofs.Text.Utf8
import FieldTelemetry.Proofs.Time.Timestamp
import FieldTelemetry.Time.Strict

/-!
# Timestamps of fixed width read back

The text of an instant with its offset in figures denotes it, as long as its year has four digits.

## Main results

* `Strict.date_render`, `Strict.timeOfDay_render`: dates and times of day in front of octets
* `Instant.ofStrict_numeric`: the instant of the text of an instant
-/

namespace FieldTelemetry

namespace Text

/-- A number is written in the octets of its digits. -/
theorem utf8_padded {width n : Nat} (hw : 0 < width) (h : n < 10 ^ width) :
    utf8 (padded width n) = (lastDigits width n []).map digitOctet := by
  rw [utf8_eq_flatMap, Time.padded_eq hw h, ofDigits, List.flatMap_map]
  simp only [utf8EncodeChar_toChar]
  exact List.map_eq_flatMap.symm

theorem length_utf8_padded {width n : Nat} (hw : 0 < width) (h : n < 10 ^ width) :
    (utf8 (padded width n)).length = width := by
  rw [utf8_padded hw h, List.length_map, length_lastDigits]

end Text

namespace Time

open Text

namespace Strict

/-! ## Digits and marks -/

theorem digits_octets (ds : List Digit) (found : Nat) (rest : Octets) :
    digits ds.length found (ds.map digitOctet ++ rest)
      = .ok (ds.foldl (fun n d => 10 * n + d.val) found, rest) := by
  induction ds generalizing found with
  | nil => rfl
  | cons d ds ih =>
    rw [List.length_cons, List.map_cons, List.cons_append, digits, digitOfOctet?_digitOctet]
    exact ih _

/-- A number of full width is read to its end. -/
theorem digits_padded {width n : Nat} (hw : 0 < width) (h : n < 10 ^ width) (rest : Octets) :
    digits width 0 (utf8 (padded width n) ++ rest) = .ok (n, rest) := by
  have hdigits := digits_octets (lastDigits width n []) 0 rest
  have hvalue := value_lastDigits width n
  rw [value, Nat.mod_eq_of_lt h] at hvalue
  rwa [length_lastDigits, hvalue, ← utf8_padded hw h] at hdigits

/-! ## Dates -/

/-- The date in front of octets that begin with the text of a date of four digits of years. -/
theorem date_render {date : Date} (h : date.Valid) (hyear : 0 ≤ date.year ∧ date.year ≤ 9999)
    (hmonth : date.month < 100) (hday : date.day < 100) (rest : Octets) :
    Strict.date (utf8 date.render ++ rest) = .ok (date, rest) := by
  have htext : utf8 date.render ++ rest = utf8 (padded 4 date.year.natAbs)
      ++ 0x2d :: (utf8 (padded 2 date.month) ++ 0x2d :: (utf8 (padded 2 date.day) ++ rest)) := by
    have hmark : utf8 "-" = [0x2d] := by decide
    simp [Date.render, yearText, hyear, utf8_append, hmark]
  have hmark (rest : Octets) : mark ['-'] (0x2d :: rest) = .ok rest := rfl
  have hdate : (⟨date.year.natAbs, date.month, date.day⟩ : Date) = date := by
    rw [Int.natAbs_of_nonneg hyear.1]
  rw [htext, Strict.date, digits_padded (by decide) (by omega)]
  simp only [bind, Except.bind, hmark]
  rw [digits_padded (by decide) hmonth]
  simp only [hmark]
  rw [digits_padded (by decide) hday]
  dsimp only
  rw [hdate, if_pos h]
  rfl

theorem length_date_render {date : Date} (hyear : 0 ≤ date.year ∧ date.year ≤ 9999)
    (hmonth : date.month < 100) (hday : date.day < 100) : (utf8 date.render).length = 10 := by
  have hmark : utf8 "-" = [0x2d] := by decide
  rw [Date.render, yearText, if_pos hyear]
  simp only [utf8_append, List.length_append, hmark, List.length_singleton]
  rw [length_utf8_padded (by decide) (by omega), length_utf8_padded (by decide) hmonth,
    length_utf8_padded (by decide) hday]

/-! ## Times of day -/

/-- A fraction ends where no digit follows. -/
theorem fractionDigits_octets {room : Nat} (ds : List Digit) (found : Nat) {c : UInt8}
    (hc : digitOfOctet? c = none) (rest : Octets) (hlength : ds.length ≤ room) :
    fractionDigits room found (ds.map digitOctet ++ c :: rest)
      = (ds.foldl (fun n d => 10 * n + d.val) found * 10 ^ (room - ds.length), c :: rest) := by
  induction ds generalizing room found with
  | nil =>
    rw [List.map_nil, List.nil_append, fractionDigits.eq_def]
    simp [hc]
  | cons d ds ih =>
    cases room with
    | zero => simp at hlength
    | succ room =>
      rw [List.length_cons, Nat.add_le_add_iff_right] at hlength
      rw [List.map_cons, List.cons_append, fractionDigits.eq_def]
      simp only [digitOfOctet?_digitOctet]
      rw [ih _ hlength, List.length_cons, Nat.add_sub_add_right, List.foldl_cons]

theorem fraction_padded {width n : Nat} (hwidth : 0 < width ∧ width ≤ 9) (hn : n < 10 ^ width)
    {c : UInt8} (hc : digitOfOctet? c = none) (rest : Octets) :
    fraction (0x2e :: (utf8 (padded width n) ++ c :: rest))
      = .ok (n * 10 ^ (9 - width), c :: rest) := by
  have hlength := length_lastDigits width n
  have hvalue := value_lastDigits width n
  rw [value, Nat.mod_eq_of_lt hn] at hvalue
  have hroom : (lastDigits width n []).length ≤ 9 := hlength.trans_le hwidth.2
  have hdigits := fractionDigits_octets (lastDigits width n []) 0 hc rest hroom
  rw [hlength, hvalue, ← utf8_padded hwidth.1 hn] at hdigits
  -- There is a digit after the point.
  have hfirst : ∃ found, digits 1 0 (utf8 (padded width n) ++ c :: rest) = .ok found := by
    rw [utf8_padded hwidth.1 hn]
    cases hds : lastDigits width n [] with
    | nil =>
      rw [hds, List.length_nil] at hlength
      omega
    | cons d ds => exact ⟨_, digits_octets [d] 0 _⟩
  obtain ⟨found, hfound⟩ := hfirst
  rw [fraction, hfound, hdigits]
  rfl

/-- A fraction is read back, of whichever width it is. -/
theorem fraction_fractionText {nano : Nat} (hnano : nano < nanosPerSecond) {c : UInt8}
    (hc : digitOfOctet? c = none) (hpoint : c ≠ 0x2e) (rest : Octets) :
    fraction (utf8 (fractionText nano) ++ c :: rest) = .ok (nano, c :: rest) := by
  have htext (text : String) : utf8 ("." ++ text) = 0x2e :: utf8 text := by
    rw [utf8_append]
    rfl
  rw [nanosPerSecond] at hnano
  -- There are as many digits as are needed, in groups of three.
  unfold fractionText
  split
  · rename_i h0
    have hempty : utf8 "" = [] := by decide
    rw [h0, hempty, List.nil_append]
    unfold fraction
    split
    · rename_i heq
      exact absurd (List.cons.inj heq).1 hpoint
    · rfl
  · split
    · rw [htext, List.cons_append, fraction_padded (by decide) (by omega) hc]
      congr 2
      omega
    · split
      · rw [htext, List.cons_append, fraction_padded (by decide) (by omega) hc]
        congr 2
        omega
      · rw [htext, List.cons_append, fraction_padded (by decide) (by omega) hc]
        congr 2
        omega

/-- The time of day in front of octets that begin with the text of a time of day. -/
theorem timeOfDay_render {time : TimeOfDay} (h : time.Valid) {c : UInt8}
    (hc : digitOfOctet? c = none) (hpoint : c ≠ 0x2e) (rest : Octets) :
    Strict.timeOfDay (utf8 time.render ++ c :: rest) = .ok (time, c :: rest) := by
  obtain ⟨hhour, hminute, hsecond, hnano⟩ := h
  have htext : utf8 time.render ++ c :: rest = utf8 (padded 2 time.hour)
      ++ 0x3a :: (utf8 (padded 2 time.minute) ++ 0x3a :: (utf8 (padded 2 time.second)
        ++ (utf8 (fractionText time.nano) ++ c :: rest))) := by
    have hmark : utf8 ":" = [0x3a] := by decide
    simp [TimeOfDay.render, utf8_append, hmark]
  have hmark (rest : Octets) : mark [':'] (0x3a :: rest) = .ok rest := rfl
  rw [htext, Strict.timeOfDay, digits_padded (by decide) (by omega)]
  simp only [bind, Except.bind, hmark]
  rw [digits_padded (by decide) (by omega)]
  simp only [hmark]
  rw [digits_padded (by decide) (by omega)]
  dsimp only
  rw [fraction_fractionText hnano hc hpoint]
  dsimp only
  rw [if_pos ⟨hhour, hminute, hsecond, hnano⟩]
  rfl

theorem le_length_timeOfDay_render {time : TimeOfDay} (h : time.Valid) :
    8 ≤ (utf8 time.render).length := by
  obtain ⟨hhour, hminute, hsecond, -⟩ := h
  have hmark : utf8 ":" = [0x3a] := by decide
  rw [TimeOfDay.render]
  simp only [utf8_append, List.length_append, hmark, List.length_singleton]
  rw [length_utf8_padded (by decide) (by omega), length_utf8_padded (by decide) (by omega),
    length_utf8_padded (by decide) (by omega)]
  omega

end Strict

/-! ## Instants -/

/-- The text of an instant whose year has four digits denotes it. -/
theorem Instant.ofStrict_numeric {a : Instant} (h : 0 ≤ a.date.year ∧ a.date.year ≤ 9999) :
    Instant.ofStrict a.numeric = .ok a := by
  have hvalid : a.date.Valid := Date.valid_ofDayNumber _
  have hmonth : a.date.month < 100 := hvalid.month_le.trans_lt (by decide)
  have hday : a.date.day < 100 := hvalid.day_le.trans_lt (by decide)
  have htext : utf8 a.numeric
      = utf8 a.date.render ++ 0x54 :: (utf8 a.timeOfDay.render ++ 0x2b :: utf8 "00:00") := by
    have hmark : utf8 "T" = [0x54] := by decide
    have hoffset : utf8 "+00:00" = 0x2b :: utf8 "00:00" := by decide
    simp [Instant.numeric, Instant.render, utf8_append, hmark, hoffset]
  have hlong : ¬ (utf8 a.numeric).length < Strict.leastLength := by
    have htime := Strict.le_length_timeOfDay_render a.timeOfDay_valid
    rw [htext, List.length_append, List.length_cons, List.length_append, List.length_cons,
      Strict.length_date_render h hmonth hday, Strict.leastLength]
    omega
  have hmark (rest : Octets) : Strict.mark ['T', 't', ' '] (0x54 :: rest) = .ok rest := rfl
  have hoffset : Strict.offset (0x2b :: utf8 "00:00") = .ok (0, []) := by decide +kernel
  rw [Instant.ofStrict]
  dsimp only
  rw [if_neg hlong, htext]
  simp only [bind, Except.bind, pure, Except.pure]
  rw [Strict.date_render hvalid h hmonth hday]
  simp only [hmark]
  rw [Strict.timeOfDay_render a.timeOfDay_valid (by decide) (by decide)]
  dsimp only
  rw [hoffset]
  simp [ofDateTime?_date_timeOfDay, secondsPerDay]

end Time

end FieldTelemetry
