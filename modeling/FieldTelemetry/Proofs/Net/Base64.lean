import FieldTelemetry.Net.Base64
import FieldTelemetry.Proofs.Except
import FieldTelemetry.Proofs.Text.Utf8
import FieldTelemetry.Text.Blank
import Mathlib.Data.List.TakeWhile

/-!
# Octets in Base64

Every sequence of octets has one text in Base64, and this text is the only one that is read as these
octets.

## Main definitions

* `Base64.octet`: a symbol in ASCII

## Main results

* `Base64.decode_eq_ok_iff`: the text that is read as given octets
* `Base64.trim_encode`: a text in Base64 has no blanks around it
-/

namespace FieldTelemetry.Net.Base64

/-! ## Symbols -/

/-- The symbol of a value in ASCII. -/
def octet (value : Nat) : UInt8 := .ofNat (symbol value).toNat

theorem utf8EncodeChar_symbol {n : Nat} (h : n < 64) :
    String.utf8EncodeChar (symbol n) = [octet n] := by
  revert n
  decide +kernel

theorem value?_octet {n : Nat} (h : n < 64) : value? (octet n) = some n := by
  revert n
  decide +kernel

theorem octet_ne_padding {n : Nat} (h : n < 64) : octet n ≠ padding := by
  revert n
  decide +kernel

theorem isBlank_symbol {n : Nat} (h : n < 64) : Text.isBlank (symbol n) = false := by
  revert n
  decide +kernel

/-- An octet has a value only as the symbol of this value. -/
theorem eq_octet_of_value? {b : UInt8} {n : Nat} (h : value? b = some n) :
    n < 64 ∧ b = octet n := by
  have hall : ∀ k < 256, ∀ n ∈ value? (.ofNat k), n < 64 ∧ UInt8.ofNat k = octet n := by
    decide +kernel
  -- All octets are among the first 256 numbers.
  have hb := hall b.toNat b.toNat_lt n
  rw [UInt8.ofNat_toNat] at hb
  exact hb h

theorem valueAt_octet {n : Nat} (h : n < 64) (offset : Nat) :
    valueAt offset (octet n) = .ok n := by
  rw [valueAt, value?_octet h]

theorem eq_octet_of_valueAt {offset n : Nat} {b : UInt8} (h : valueAt offset b = .ok n) :
    n < 64 ∧ b = octet n := by
  rw [valueAt] at h
  split at h
  · rename_i hvalue
    cases h
    exact eq_octet_of_value? hvalue
  · cases h

/-! ## Groups of three -/

/-- What three octets say in six bits at a time, and back. -/
theorem triple_eq (x y z : UInt8) :
    triple (x.toNat / 4) (x.toNat % 4 * 16 + y.toNat / 16) (y.toNat % 16 * 4 + z.toNat / 64)
      (z.toNat % 64) = [x, y, z] := by
  have hx := x.toNat_lt
  have hy := y.toNat_lt
  have hz := z.toNat_lt
  simp only [triple, List.cons.injEq, and_true]
  refine ⟨?_, ?_, ?_⟩ <;> apply UInt8.toNat_inj.mp <;> rw [UInt8.toNat_ofNat'] <;> omega

theorem eq_of_triple {a b c d : Nat} {x y z : UInt8} (ha : a < 64) (hb : b < 64) (hc : c < 64)
    (hd : d < 64) (h : triple a b c d = [x, y, z]) :
    x.toNat / 4 = a ∧ x.toNat % 4 * 16 + y.toNat / 16 = b
      ∧ y.toNat % 16 * 4 + z.toNat / 64 = c ∧ z.toNat % 64 = d := by
  simp only [triple, List.cons.injEq, and_true] at h
  obtain ⟨rfl, rfl, rfl⟩ := h
  -- Values of six bits leave no carry beyond an octet.
  simp only [UInt8.toNat_ofNat']
  omega

theorem exists_triple (a b c d : Nat) : ∃ x y z, triple a b c d = [x, y, z] := ⟨_, _, _, rfl⟩

/-! ## Texts -/

/-- The octets of a text in Base64. -/
def encoded (octets : Octets) : Octets := Text.utf8 (encode octets)

theorem encoded_eq_flatMap (octets : Octets) :
    encoded octets = (encodeChars octets).flatMap String.utf8EncodeChar := by
  rw [encoded, encode, Text.utf8_ofList]

theorem encoded_nil : encoded [] = [] := by
  rw [encoded_eq_flatMap]
  rfl

theorem encoded_one (x : UInt8) :
    encoded [x] = [octet (x.toNat / 4), octet (x.toNat % 4 * 16), padding, padding] := by
  have hx := x.toNat_lt
  simp only [encoded_eq_flatMap, encodeChars, List.flatMap_cons, List.flatMap_nil,
    utf8EncodeChar_symbol (show x.toNat / 4 < 64 by omega),
    utf8EncodeChar_symbol (show x.toNat % 4 * 16 < 64 by omega)]
  rfl

theorem encoded_two (x y : UInt8) :
    encoded [x, y] = [octet (x.toNat / 4), octet (x.toNat % 4 * 16 + y.toNat / 16),
      octet (y.toNat % 16 * 4), padding] := by
  have hx := x.toNat_lt
  have hy := y.toNat_lt
  simp only [encoded_eq_flatMap, encodeChars, List.flatMap_cons, List.flatMap_nil,
    utf8EncodeChar_symbol (show x.toNat / 4 < 64 by omega),
    utf8EncodeChar_symbol (show x.toNat % 4 * 16 + y.toNat / 16 < 64 by omega),
    utf8EncodeChar_symbol (show y.toNat % 16 * 4 < 64 by omega)]
  rfl

theorem encoded_three (x y z : UInt8) (rest : Octets) :
    encoded (x :: y :: z :: rest) = octet (x.toNat / 4)
      :: octet (x.toNat % 4 * 16 + y.toNat / 16) :: octet (y.toNat % 16 * 4 + z.toNat / 64)
      :: octet (z.toNat % 64) :: encoded rest := by
  have hx := x.toNat_lt
  have hy := y.toNat_lt
  have hz := z.toNat_lt
  simp only [encoded_eq_flatMap, encodeChars, List.flatMap_cons,
    utf8EncodeChar_symbol (show x.toNat / 4 < 64 by omega),
    utf8EncodeChar_symbol (show x.toNat % 4 * 16 + y.toNat / 16 < 64 by omega),
    utf8EncodeChar_symbol (show y.toNat % 16 * 4 + z.toNat / 64 < 64 by omega),
    utf8EncodeChar_symbol (show z.toNat % 64 < 64 by omega)]
  rfl

/-- The text of what values of six bits say are the symbols of these values. -/
theorem encoded_triple {a b c d : Nat} (ha : a < 64) (hb : b < 64) (hc : c < 64) (hd : d < 64)
    (rest : Octets) : encoded (triple a b c d ++ rest)
      = octet a :: octet b :: octet c :: octet d :: encoded rest := by
  obtain ⟨x, y, z, htriple⟩ := exists_triple a b c d
  obtain ⟨rfl, rfl, rfl, rfl⟩ := eq_of_triple ha hb hc hd htriple
  rw [htriple]
  exact encoded_three x y z rest

theorem encoded_take_one {a b : Nat} (ha : a < 64) (hb : b < 64) (hrest : b % 16 = 0) :
    encoded ((triple a b 0 0).take 1) = [octet a, octet b, padding, padding] := by
  obtain ⟨x, y, z, htriple⟩ := exists_triple a b 0 0
  obtain ⟨rfl, rfl, -⟩ := eq_of_triple ha hb (by decide) (by decide) htriple
  have hy := y.toNat_lt
  -- The bits of the second value that belong to no octet are none.
  have hnone : y.toNat / 16 = 0 := by omega
  rw [htriple, hnone]
  exact encoded_one x

theorem encoded_take_two {a b c : Nat} (ha : a < 64) (hb : b < 64) (hc : c < 64)
    (hrest : c % 4 = 0) :
    encoded ((triple a b c 0).take 2) = [octet a, octet b, octet c, padding] := by
  obtain ⟨x, y, z, htriple⟩ := exists_triple a b c 0
  obtain ⟨rfl, rfl, rfl, -⟩ := eq_of_triple ha hb hc (by decide) htriple
  have hz := z.toNat_lt
  have hnone : z.toNat / 64 = 0 := by omega
  rw [htriple, hnone]
  exact encoded_two x y

theorem length_encoded_mod (octets : Octets) : (encoded octets).length % 4 = 0 := by
  induction octets using encodeChars.induct with
  | case1 => simp [encoded_nil]
  | case2 x => simp [encoded_one]
  | case3 x y => simp [encoded_two]
  | case4 x y z rest ih =>
    rw [encoded_three]
    simp only [List.length_cons]
    omega

/-! ## The end of a text -/

/-- The symbols of values, as they are found. -/
def foundOf (values : List Nat) : List (UInt8 × Nat) := values.map fun n => (octet n, n)

theorem lastSymbols_padding {index : Nat} (h : 2 ≤ index) (offset k : Nat) :
    lastSymbols offset index (List.replicate k padding) = .ok ([], k) := by
  cases k with
  | zero => rfl
  | succ k =>
    have hall : (List.replicate k padding).all (· == padding) = true := by simp
    rw [List.replicate_succ, lastSymbols, if_pos rfl, if_neg (by omega), if_pos hall,
      List.length_replicate]

theorem lastSymbols_values (values : List Nat) (h : ∀ n ∈ values, n < 64) {index : Nat}
    (hlength : 2 ≤ index + values.length) (offset k : Nat) :
    lastSymbols offset index (values.map octet ++ List.replicate k padding)
      = .ok (foundOf values, k) := by
  induction values generalizing index with
  | nil => exact lastSymbols_padding hlength offset k
  | cons n values ih =>
    rw [List.forall_mem_cons] at h
    rw [List.length_cons] at hlength
    rw [List.map_cons, List.cons_append, lastSymbols, if_neg (octet_ne_padding h.1),
      valueAt_octet h.1, ok_bind, ih h.2 (by omega)]
    rfl

/-- Whatever is found at the end of a text are the symbols of values with padding behind them. -/
theorem exists_values_of_lastSymbols {offset index k : Nat} {t : Octets}
    {found : List (UInt8 × Nat)} (h : lastSymbols offset index t = .ok (found, k)) :
    ∃ values : List Nat, (∀ n ∈ values, n < 64) ∧ found = foundOf values
      ∧ t = values.map octet ++ List.replicate k padding := by
  induction t generalizing index found with
  | nil =>
    cases h
    exact ⟨[], by simp, rfl, rfl⟩
  | cons b rest ih =>
    rw [lastSymbols] at h
    split at h
    · rename_i hb
      split at h
      · cases h
      · split at h
        · rename_i hall
          cases h
          refine ⟨[], by simp, rfl, ?_⟩
          rw [hb, List.map_nil, List.nil_append, List.replicate_succ, List.cons.injEq,
            List.eq_replicate_iff]
          simpa using hall
        · cases h
    · obtain ⟨n, hn, h⟩ := bind_eq_ok.mp h
      obtain ⟨⟨found', k'⟩, hrest, h⟩ := bind_eq_ok.mp h
      cases h
      obtain ⟨hlt, rfl⟩ := eq_octet_of_valueAt hn
      obtain ⟨values, hvalues, rfl, rfl⟩ := ih hrest
      exact ⟨n :: values, List.forall_mem_cons.mpr ⟨hlt, hvalues⟩, rfl, rfl⟩

theorem lastOctets_nil (offset : Nat) : lastOctets offset [] = .ok [] := rfl

theorem lastOctets_two {a b : Nat} (ha : a < 64) (hb : b < 64) (offset : Nat) :
    lastOctets offset [octet a, octet b, padding, padding]
      = if b % 16 ≠ 0 then .error (.lastSymbol (octet b) (offset + 1))
        else .ok ((triple a b 0 0).take 1) := by
  have hlast : lastSymbols offset 0 [octet a, octet b, padding, padding]
      = .ok ([(octet a, a), (octet b, b)], 2) :=
    lastSymbols_values [a, b] (by simp [ha, hb]) (by simp) offset 2
  rw [lastOctets, hlast, ok_bind]
  simp

theorem lastOctets_three {a b c : Nat} (ha : a < 64) (hb : b < 64) (hc : c < 64) (offset : Nat) :
    lastOctets offset [octet a, octet b, octet c, padding]
      = if c % 4 ≠ 0 then .error (.lastSymbol (octet c) (offset + 2))
        else .ok ((triple a b c 0).take 2) := by
  have hlast : lastSymbols offset 0 [octet a, octet b, octet c, padding]
      = .ok ([(octet a, a), (octet b, b), (octet c, c)], 1) :=
    lastSymbols_values [a, b, c] (by simp [ha, hb, hc]) (by simp) offset 1
  rw [lastOctets, hlast, ok_bind]
  simp

theorem lastOctets_four {a b c d : Nat} (ha : a < 64) (hb : b < 64) (hc : c < 64) (hd : d < 64)
    (offset : Nat) :
    lastOctets offset [octet a, octet b, octet c, octet d] = .ok (triple a b c d) := by
  have hlast : lastSymbols offset 0 [octet a, octet b, octet c, octet d]
      = .ok ([(octet a, a), (octet b, b), (octet c, c), (octet d, d)], 0) :=
    lastSymbols_values [a, b, c, d] (by simp [ha, hb, hc, hd]) (by simp) offset 0
  rw [lastOctets, hlast, ok_bind]
  simp

/-- The end of a text has octets only when it is two, three or four symbols, filled up to four. -/
inductive Ending : Octets → Prop
  | nil : Ending []
  | two {a b : Nat} (ha : a < 64) (hb : b < 64) : Ending [octet a, octet b, padding, padding]
  | three {a b c : Nat} (ha : a < 64) (hb : b < 64) (hc : c < 64) :
    Ending [octet a, octet b, octet c, padding]
  | four {a b c d : Nat} (ha : a < 64) (hb : b < 64) (hc : c < 64) (hd : d < 64) :
    Ending [octet a, octet b, octet c, octet d]

theorem ending_of_lastOctets {offset : Nat} {t p : Octets} (hlength : t.length ≤ 4)
    (h : lastOctets offset t = .ok p) : Ending t := by
  rw [lastOctets, bind_eq_ok] at h
  obtain ⟨⟨found, k⟩, hlast, h⟩ := h
  obtain ⟨values, hvalues, rfl, rfl⟩ := exists_values_of_lastSymbols hlast
  dsimp only at h
  split at h
  · cases h
  rename_i hsome
  split at h
  · cases h
  rename_i hfull
  simp only [foundOf, List.length_append, List.length_map, List.length_replicate, ne_eq,
    List.append_eq_nil_iff, List.map_eq_nil_iff, List.replicate_eq_nil_iff, not_not]
    at hlength hsome hfull
  -- The number of symbols leaves one number of paddings, if any.
  match values with
  | [] =>
    obtain rfl : k = 0 := by simpa using hsome
    exact .nil
  | [a] => simp at hsome
  | [a, b] =>
    obtain rfl : k = 2 := by simp at hlength hfull; omega
    simp only [List.forall_mem_cons] at hvalues
    exact .two hvalues.1 hvalues.2.1
  | [a, b, c] =>
    obtain rfl : k = 1 := by simp at hlength hfull; omega
    simp only [List.forall_mem_cons] at hvalues
    exact .three hvalues.1 hvalues.2.1 hvalues.2.2.1
  | [a, b, c, d] =>
    obtain rfl : k = 0 := by simp at hlength; omega
    simp only [List.forall_mem_cons] at hvalues
    exact .four hvalues.1 hvalues.2.1 hvalues.2.2.1 hvalues.2.2.2.1
  | _ :: _ :: _ :: _ :: _ :: _ =>
    simp only [List.length_cons] at hlength
    omega

/-- The end of a text is read as the octets whose text it is. -/
theorem eq_encoded_of_lastOctets {offset : Nat} {t p : Octets} (hlength : t.length ≤ 4)
    (h : lastOctets offset t = .ok p) : t = encoded p := by
  cases ending_of_lastOctets hlength h with
  | nil =>
    cases h
    exact encoded_nil.symm
  | two ha hb =>
    rw [lastOctets_two ha hb] at h
    split at h
    · cases h
    · rename_i hrest
      cases h
      exact (encoded_take_one ha hb (not_not.mp hrest)).symm
  | three ha hb hc =>
    rw [lastOctets_three ha hb hc] at h
    split at h
    · cases h
    · rename_i hrest
      cases h
      exact (encoded_take_two ha hb hc (not_not.mp hrest)).symm
  | four ha hb hc hd =>
    rw [lastOctets_four ha hb hc hd] at h
    cases h
    rw [← List.append_nil (triple _ _ _ _), encoded_triple ha hb hc hd, encoded_nil]

theorem lastOctets_encoded {p : Octets} (hlength : p.length ≤ 3) (offset : Nat) :
    lastOctets offset (encoded p) = .ok p := by
  match p with
  | [] => rw [encoded_nil, lastOctets_nil]
  | [x] =>
    have hx := x.toNat_lt
    have htriple : triple (x.toNat / 4) (x.toNat % 4 * 16) 0 0 = [x, 0, 0] := triple_eq x 0 0
    rw [encoded_one, lastOctets_two (by omega) (by omega), if_neg (by omega), htriple]
    rfl
  | [x, y] =>
    have hx := x.toNat_lt
    have hy := y.toNat_lt
    have htriple : triple (x.toNat / 4) (x.toNat % 4 * 16 + y.toNat / 16) (y.toNat % 16 * 4) 0
        = [x, y, 0] := triple_eq x y 0
    rw [encoded_two, lastOctets_three (by omega) (by omega) (by omega), if_neg (by omega), htriple]
    rfl
  | [x, y, z] =>
    have hx := x.toNat_lt
    have hy := y.toNat_lt
    have hz := z.toNat_lt
    rw [encoded_three, encoded_nil, lastOctets_four (by omega) (by omega) (by omega) (by omega),
      triple_eq]
  | _ :: _ :: _ :: _ :: _ =>
    simp only [List.length_cons] at hlength
    omega

/-! ## Whole texts -/

theorem decodeFrom_of_length_le {t : Octets} (h : t.length ≤ 4) (offset : Nat) :
    decodeFrom offset t = lastOctets offset t := by
  match t with
  | [] | [_] | [_, _] | [_, _, _] | [_, _, _, _] => rfl
  | _ :: _ :: _ :: _ :: _ :: _ =>
    simp only [List.length_cons] at h
    omega

theorem decodeFrom_values {a b c d : Nat} (ha : a < 64) (hb : b < 64) (hc : c < 64) (hd : d < 64)
    {rest : Octets} (hrest : rest ≠ []) (offset : Nat) :
    decodeFrom offset (octet a :: octet b :: octet c :: octet d :: rest)
      = decodeFrom (offset + 4) rest >>= fun later => .ok (triple a b c d ++ later) := by
  obtain ⟨e, rest, rfl⟩ := List.exists_cons_of_ne_nil hrest
  rw [decodeFrom, valueAt_octet ha, valueAt_octet hb, valueAt_octet hc, valueAt_octet hd]
  rfl

theorem eq_encoded_of_decodeFrom {offset : Nat} {t p : Octets} (h : decodeFrom offset t = .ok p) :
    t = encoded p := by
  induction offset, t using decodeFrom.induct generalizing p with
  | case1 offset a b c d e rest ih =>
    rw [decodeFrom] at h
    simp only [bind_eq_ok] at h
    obtain ⟨_, ha, _, hb, _, hc, _, hd, q, hrest, h⟩ := h
    cases h
    obtain ⟨ha', rfl⟩ := eq_octet_of_valueAt ha
    obtain ⟨hb', rfl⟩ := eq_octet_of_valueAt hb
    obtain ⟨hc', rfl⟩ := eq_octet_of_valueAt hc
    obtain ⟨hd', rfl⟩ := eq_octet_of_valueAt hd
    rw [encoded_triple ha' hb' hc' hd', ih hrest]
  | case2 offset t hshort =>
    have hlength : t.length ≤ 4 := by
      match t with
      | [] | [_] | [_, _] | [_, _, _] | [_, _, _, _] => simp
      | a :: b :: c :: d :: e :: rest => exact (hshort a b c d e rest rfl).elim
    rw [decodeFrom_of_length_le hlength] at h
    exact eq_encoded_of_lastOctets hlength h

theorem encoded_ne_nil {p : Octets} (h : p ≠ []) : encoded p ≠ [] := by
  match p with
  | [] => exact absurd rfl h
  | [x] => simp [encoded_one]
  | [x, y] => simp [encoded_two]
  | x :: y :: z :: rest => simp [encoded_three]

theorem decodeFrom_encoded (p : Octets) (offset : Nat) :
    decodeFrom offset (encoded p) = .ok p := by
  induction p using encodeChars.induct generalizing offset with
  | case1 => rw [encoded_nil]; rfl
  | case2 x =>
    rw [decodeFrom_of_length_le (by simp [encoded_one]), lastOctets_encoded (by simp)]
  | case3 x y =>
    rw [decodeFrom_of_length_le (by simp [encoded_two]), lastOctets_encoded (by simp)]
  | case4 x y z rest ih =>
    -- The last four symbols are the end of the text, even when there is no padding among them.
    by_cases hrest : rest = []
    · subst hrest
      rw [decodeFrom_of_length_le (by simp [encoded_three, encoded_nil]),
        lastOctets_encoded (by simp)]
    · have hx := x.toNat_lt
      have hy := y.toNat_lt
      have hz := z.toNat_lt
      rw [encoded_three, decodeFrom_values (by omega) (by omega) (by omega) (by omega)
        (encoded_ne_nil hrest), ih, ok_bind, triple_eq]
      rfl

/-- A text is read as octets exactly when it is their text. -/
theorem decode_eq_ok_iff {t p : Octets} : decode t = .ok p ↔ t = Text.utf8 (encode p) := by
  rw [decode]
  constructor
  · intro h
    split at h
    · cases h
    · exact eq_encoded_of_decodeFrom h
  · rintro rfl
    -- Nothing stands alone behind groups of four.
    have hstray : strayEnd? (Text.utf8 (encode p)) = none := by
      have hlength := length_encoded_mod p
      rw [encoded] at hlength
      rw [strayEnd?, if_neg (by omega)]
    rw [hstray]
    exact decodeFrom_encoded p 0

/-! ## Blanks -/

theorem isBlank_of_mem_encodeChars {p : Octets} {c : Char} (h : c ∈ encodeChars p) :
    Text.isBlank c = false := by
  have hpadding : Text.isBlank '=' = false := by decide
  induction p using encodeChars.induct with
  | case1 => cases h
  | case2 x =>
    have hx := x.toNat_lt
    simp only [encodeChars, List.mem_cons, List.not_mem_nil, or_false] at h
    rcases h with rfl | rfl | rfl | rfl
    · exact isBlank_symbol (by omega)
    · exact isBlank_symbol (by omega)
    · exact hpadding
    · exact hpadding
  | case3 x y =>
    have hx := x.toNat_lt
    have hy := y.toNat_lt
    simp only [encodeChars, List.mem_cons, List.not_mem_nil, or_false] at h
    rcases h with rfl | rfl | rfl | rfl
    · exact isBlank_symbol (by omega)
    · exact isBlank_symbol (by omega)
    · exact isBlank_symbol (by omega)
    · exact hpadding
  | case4 x y z rest ih =>
    have hx := x.toNat_lt
    have hy := y.toNat_lt
    have hz := z.toNat_lt
    simp only [encodeChars, List.mem_cons] at h
    rcases h with rfl | rfl | rfl | rfl | hrest
    · exact isBlank_symbol (by omega)
    · exact isBlank_symbol (by omega)
    · exact isBlank_symbol (by omega)
    · exact isBlank_symbol (by omega)
    · exact ih hrest

/-- There are no blanks around a text in Base64. -/
theorem trim_encode (p : Octets) : Text.trim (encode p) = encode p := by
  have htrim {cs : List Char} (h : ∀ c ∈ cs, Text.isBlank c = false) : Text.trimStart cs = cs := by
    rw [Text.trimStart, List.dropWhile_eq_self_iff]
    exact fun hpos => by simp [h _ (List.getElem_mem hpos)]
  have hchars (c : Char) (h : c ∈ encodeChars p) : Text.isBlank c = false :=
    isBlank_of_mem_encodeChars h
  rw [Text.trim, encode, String.toList_ofList, htrim hchars, htrim (by simpa using hchars),
    List.reverse_reverse]

end FieldTelemetry.Net.Base64
