import FieldTelemetry.Proofs.Text.Digits
import FieldTelemetry.Proofs.Time.Calendar
import FieldTelemetry.Time.Relaxed
import FieldTelemetry.Time.Timestamp

/-!
# Timestamps read back

The text of an instant denotes it, whatever its year.

## Main results

* `Relaxed.date?_render`, `Relaxed.timeOfDay?_render`: dates and times of day in front of a text
* `Instant.ofRelaxed?_zulu`: the instant of the text of an instant
-/

namespace FieldTelemetry.Time

open Text

/-! ## Runs of digits -/

/-- A text that does not go on with a digit. -/
def Undigited : List Char → Prop
  | [] => True
  | c :: _ => digitOf? c = none

theorem isBlank_toChar (d : Digit) : isBlank d.toChar = false := by
  revert d; decide

theorem takeDigits_ofDigits (ds : List Digit) {rest : List Char} (h : Undigited rest) :
    takeDigits (ofDigits ds ++ rest) = (ds, rest) := by
  induction ds with
  | nil =>
    -- The digits end with the text or in front of another character.
    cases rest with
    | nil => rfl
    | cons c rest =>
      have hc : digitOf? c = none := h
      simp [ofDigits, takeDigits, hc]
  | cons d ds ih =>
    rw [ofDigits] at ih
    simp [ofDigits, takeDigits, ih]

theorem trimStart_toChar (d : Digit) (rest : List Char) :
    trimStart (d.toChar :: rest) = d.toChar :: rest := by
  rw [trimStart, List.dropWhile_cons_of_neg]
  simp [isBlank_toChar]

/-- The text of a number with room for all its digits. -/
theorem padded_eq {width n : Nat} (hw : 0 < width) (h : n < 10 ^ width) :
    (padded width n).toList = ofDigits (lastDigits width n []) := by
  rw [padded, max_eq_left (digitCount_le hw h), String.toList_ofList]

namespace Relaxed

theorem someDigits_ofDigits (found : Nat) (ds : List Digit) (rest : List Char) :
    someDigits ds.length found (ofDigits ds ++ rest)
      = (ds.foldl (fun n d => 10 * n + d.val) found, rest) := by
  induction ds generalizing found with
  | nil => rfl
  | cons d ds ih =>
    rw [List.length_cons, ofDigits, List.map_cons, List.cons_append, someDigits, digitOf?_toChar]
    exact ih _

theorem number?_ofDigits (d : Digit) (ds : List Digit) (rest : List Char) :
    number? (d :: ds).length (ofDigits (d :: ds) ++ rest) = some (value (d :: ds), rest) := by
  have htext : ofDigits (d :: ds) ++ rest = d.toChar :: (ofDigits ds ++ rest) := rfl
  rw [number?, htext, trimStart_toChar]
  simp only [digitOf?_toChar, Option.map_some, List.length_cons, Nat.add_sub_cancel]
  rw [someDigits_ofDigits]
  simp [value]

/-- A number of full width is read to its end. -/
theorem number?_padded {width n : Nat} (hw : 0 < width) (h : n < 10 ^ width) (rest : List Char) :
    number? width ((padded width n).toList ++ rest) = some (n, rest) := by
  have hlength := length_lastDigits width n
  have hvalue := value_lastDigits width n
  rw [padded_eq hw h]
  cases hds : lastDigits width n [] with
  | nil => simp [hds] at hlength; omega
  | cons d ds =>
    rw [hds] at hlength hvalue
    rw [← hlength, number?_ofDigits, hvalue, Nat.mod_eq_of_lt h]

/-- A number of any width is read up to what is no digit. -/
theorem longNumber?_padded (width n : Nat) {rest : List Char} (h : Undigited rest) :
    longNumber? ((padded width n).toList ++ rest) = some (n, rest) := by
  have hvalue := value_padded width n
  rw [longNumber?, padded, String.toList_ofList, takeDigits_ofDigits _ h]
  cases hds : lastDigits (max width (digitCount n)) n [] with
  | nil =>
    have hlength := length_lastDigits (max width (digitCount n)) n
    have := digitCount_pos n
    rw [hds, List.length_nil] at hlength
    omega
  | cons d ds =>
    rw [hds] at hvalue
    simp [hvalue]

theorem mark?_cons {c : Char} (h : isBlank c = false) (rest : List Char) :
    mark? c (c :: rest) = some rest := by
  rw [mark?, trimStart, List.dropWhile_cons_of_neg (by simp [h])]
  exact if_pos rfl

/-! ## Dates -/

theorem year?_yearText (year : Int) {rest : List Char} (h : Undigited rest) :
    year? ((yearText year).toList ++ rest) = some (year, rest) := by
  unfold yearText
  -- Years of four digits have no sign, all others have one.
  split
  · rename_i hyear
    have hlt : year.natAbs < 10 ^ 4 := by omega
    have hnumber := number?_padded (by decide) hlt rest
    have hlength := length_lastDigits 4 year.natAbs
    rw [padded_eq (by decide) hlt] at hnumber ⊢
    cases hds : lastDigits 4 year.natAbs [] with
    | nil => simp [hds] at hlength
    | cons d ds =>
      rw [hds] at hnumber
      have htext : ofDigits (d :: ds) ++ rest = d.toChar :: (ofDigits ds ++ rest) := rfl
      rw [htext] at hnumber ⊢
      -- A digit is neither of the signs.
      unfold year?
      rw [trimStart_toChar]
      split
      · rename_i heq
        exact absurd (List.cons.inj heq).1 (toChar_ne (by decide) d)
      · rename_i heq
        exact absurd (List.cons.inj heq).1 (toChar_ne (by decide) d)
      · rw [hnumber]
        simp only [Option.map_some, Option.some.injEq, Prod.mk.injEq, and_true]
        omega
  · rename_i hyear
    have hnumber := longNumber?_padded 4 year.natAbs h
    rw [String.toList_append, List.append_assoc]
    split
    · rename_i hneg
      have htrim : trimStart ('-' :: ((padded 4 year.natAbs).toList ++ rest))
          = '-' :: ((padded 4 year.natAbs).toList ++ rest) := rfl
      show year? ('-' :: ((padded 4 year.natAbs).toList ++ rest)) = _
      rw [year?, htrim]
      simp only [hnumber, Option.map_some, Option.some.injEq, Prod.mk.injEq, and_true]
      omega
    · rename_i hpos
      have htrim : trimStart ('+' :: ((padded 4 year.natAbs).toList ++ rest))
          = '+' :: ((padded 4 year.natAbs).toList ++ rest) := rfl
      show year? ('+' :: ((padded 4 year.natAbs).toList ++ rest)) = _
      rw [year?, htrim]
      simp only [hnumber, Option.map_some, Option.some.injEq, Prod.mk.injEq, and_true]
      omega

/-- The date in front of a text that begins with the text of a date. -/
theorem date?_render (date : Date) (hmonth : date.month < 100) (hday : date.day < 100)
    (rest : List Char) : date? (date.render.toList ++ rest) = some (date, rest) := by
  have htext : date.render.toList ++ rest = (yearText date.year).toList
      ++ '-' :: ((padded 2 date.month).toList ++ '-' :: ((padded 2 date.day).toList ++ rest)) := by
    simp [Date.render]
  have hmark : Undigited ('-' :: ((padded 2 date.month).toList
      ++ '-' :: ((padded 2 date.day).toList ++ rest))) := show digitOf? '-' = none by decide
  rw [htext, date?, year?_yearText _ hmark]
  simp only [Option.bind_eq_bind, Option.bind_some]
  rw [mark?_cons (by decide), Option.bind_some, number?_padded (by decide) hmonth,
    Option.bind_some]
  dsimp only
  rw [mark?_cons (by decide), Option.bind_some, number?_padded (by decide) hday, Option.bind_some]
  rfl

/-! ## Times of day -/

theorem fraction?_point {ds : List Digit} {rest : List Char} (h : Undigited rest) (hne : ds ≠ [])
    (hlength : ds.length ≤ 9) :
    fraction? ('.' :: (ofDigits ds ++ rest)) = some (value ds * 10 ^ (9 - ds.length), rest) := by
  rw [fraction?, takeDigits_ofDigits ds h]
  cases ds with
  | nil => exact absurd rfl hne
  | cons d ds =>
    show some (value ((d :: ds).take 9) * 10 ^ (9 - (d :: ds).length), rest) = _
    rw [List.take_of_length_le hlength]

theorem fraction?_padded {width n : Nat} {rest : List Char} (h : Undigited rest)
    (hwidth : 0 < width ∧ width ≤ 9) (hn : n < 10 ^ width) :
    fraction? ('.' :: ((padded width n).toList ++ rest)) = some (n * 10 ^ (9 - width), rest) := by
  have hlength := length_lastDigits width n
  have hne : lastDigits width n [] ≠ [] := by
    intro hnil
    rw [hnil, List.length_nil] at hlength
    omega
  rw [padded_eq hwidth.1 hn, fraction?_point h hne (hlength.trans_le hwidth.2), hlength,
    value_lastDigits, Nat.mod_eq_of_lt hn]

/-- A fraction is read back, of whichever width it is. -/
theorem fraction?_fractionText {nano : Nat} (hnano : nano < nanosPerSecond) (rest : List Char) :
    fraction? ((fractionText nano).toList ++ 'Z' :: rest) = some (nano, 'Z' :: rest) := by
  have hrest : Undigited ('Z' :: rest) := show digitOf? 'Z' = none by decide
  rw [nanosPerSecond] at hnano
  have hpoint : ∀ text : String, ("." ++ text).toList = '.' :: text.toList := by simp
  -- There are as many digits as are needed, in groups of three.
  unfold fractionText
  split
  · rename_i h0
    rw [h0]
    rfl
  · split
    · rw [hpoint, List.cons_append, fraction?_padded hrest (by decide) (by omega)]
      simp only [Option.some.injEq, Prod.mk.injEq, and_true]
      omega
    · split
      · rw [hpoint, List.cons_append, fraction?_padded hrest (by decide) (by omega)]
        simp only [Option.some.injEq, Prod.mk.injEq, and_true]
        omega
      · rw [hpoint, List.cons_append, fraction?_padded hrest (by decide) (by omega)]
        simp

/-- The time of day in front of a text that begins with the text of a time of day. -/
theorem timeOfDay?_render {time : TimeOfDay} (h : time.Valid) (rest : List Char) :
    timeOfDay? (time.render.toList ++ 'Z' :: rest) = some (time, 'Z' :: rest) := by
  obtain ⟨hhour, hminute, hsecond, hnano⟩ := h
  have htext : time.render.toList ++ 'Z' :: rest = (padded 2 time.hour).toList
      ++ ':' :: ((padded 2 time.minute).toList ++ ':' :: ((padded 2 time.second).toList
        ++ ((fractionText time.nano).toList ++ 'Z' :: rest))) := by
    simp [TimeOfDay.render]
  -- The parts are read one after the other, each up to its mark.
  rw [htext, timeOfDay?, number?_padded (by decide) (by omega)]
  simp only [Option.bind_eq_bind, Option.bind_some]
  rw [mark?_cons (by decide), Option.bind_some, number?_padded (by decide) (by omega),
    Option.bind_some]
  dsimp only
  rw [mark?_cons (by decide), Option.bind_some, number?_padded (by decide) (by omega),
    Option.bind_some]
  dsimp only
  rw [fraction?_fractionText hnano, Option.bind_some]
  rfl

end Relaxed

/-! ## Instants -/

/-- The text of an instant denotes it. -/
theorem Instant.ofRelaxed?_zulu (a : Instant) : Instant.ofRelaxed? a.zulu = some a := by
  have hvalid : a.date.Valid := Date.valid_ofDayNumber _
  have htext : a.zulu.toList
      = a.date.render.toList ++ 'T' :: (a.timeOfDay.render.toList ++ ['Z']) := by
    simp [Instant.zulu, Instant.render]
  have hdate := Relaxed.date?_render a.date (hvalid.month_le.trans_lt (by decide))
    (hvalid.day_le.trans_lt (by decide)) ('T' :: (a.timeOfDay.render.toList ++ ['Z']))
  have hoffset : Relaxed.offset? (trimStart ['Z']) = some (0, []) := by decide
  rw [Instant.ofRelaxed?, htext, hdate]
  simp only [Option.bind_eq_bind, Option.bind_some, Relaxed.separator?, true_or, if_true]
  rw [Relaxed.timeOfDay?_render a.timeOfDay_valid]
  simp only [Option.bind_some, hoffset]
  rw [ofDateTime?_date_timeOfDay]
  rfl

end FieldTelemetry.Time
