import FieldTelemetry.Json.Token
import FieldTelemetry.Proofs.Text.Digits
import FieldTelemetry.Proofs.Text.Utf8
import Mathlib.Tactic.IntervalCases

/-!
# Reading numerals back

The automaton that finds the tokens of a text reads a numeral back from its text, when nothing
follows that could belong to it.

## Main definitions

* `Numeral.Proper`: the numerals whose texts are numerals of JSON
* `Lexer.after?`: the tokens of a text of which a part has been read
* `Delimited`: the texts that do not begin with a part of a numeral

## Main results

* `Lexer.after?_render`: a numeral in front of a delimited text is one token
* `Numeral.integer?_ofNat`, `Numeral.integer?_ofInt`: numerals of whole numbers denote them
-/

namespace FieldTelemetry.Json

open Text

/-! ## Proper numerals -/

/-- A numeral whose text is one of JSON: there are digits before the point, without a zero in front
of others, and in an exponent. -/
structure Numeral.Proper (n : Numeral) : Prop where
  /-- The digits before the point are a single zero or begin with another digit. -/
  whole : n.whole = [0] ∨ ∃ d ds, n.whole = d :: ds ∧ d ≠ 0
  /-- An exponent has digits. -/
  exponent : ∀ e, n.exponent = some e → e.digits ≠ []

theorem proper_digits (n : Nat) : digits n = [0] ∨ ∃ d ds, digits n = d :: ds ∧ d ≠ 0 := by
  rcases Nat.eq_zero_or_pos n with rfl | h
  · exact .inl digits_zero
  · exact .inr (digits_eq_cons h)

theorem Numeral.proper_ofNat (n : Nat) : (Numeral.ofNat n).Proper :=
  ⟨proper_digits n, by simp [Numeral.ofNat]⟩

theorem Numeral.proper_ofInt (n : Int) : (Numeral.ofInt n).Proper :=
  ⟨proper_digits n.natAbs, by simp [Numeral.ofInt]⟩

theorem Numeral.integer?_ofNat {n : Nat} (h : n < 2 ^ 64) :
    (Numeral.ofNat n).integer? = some (n : Int) := by
  have : ¬ wordLimit < n := by simp [wordLimit]; omega
  simp [integer?, ofNat, this]

theorem Numeral.integer?_ofInt {n : Int} (h : -2 ^ 63 ≤ n) (h' : n < 2 ^ 64) :
    (Numeral.ofInt n).integer? = some n := by
  simp only [integer?, ofInt, wordLimit, List.isEmpty_nil, Option.isNone_none, Bool.and_self,
    if_true, value_digits, decide_eq_true_eq]
  -- The sign is kept apart from the digits.
  rcases Int.lt_or_le n 0 with hn | hn
  · rw [if_pos hn, if_neg (by omega)]
    congr 1
    omega
  · rw [if_neg (by omega), if_neg (by omega)]
    congr 1
    omega

/-! ## The automaton on characters -/

namespace Lexer

/-- The tokens of a text of which a part has been read. -/
def after? (lexer : Lexer) (cs : List Char) : Option (List Token) := do
  (← (cs.flatMap String.utf8EncodeChar).foldlM Lexer.step lexer).finish?

theorem after?_append (lexer : Lexer) (cs ds : List Char) :
    lexer.after? (cs ++ ds)
      = ((cs.flatMap String.utf8EncodeChar).foldlM Lexer.step lexer).bind (·.after? ds) := by
  simp only [after?, List.flatMap_append, List.foldlM_append]
  cases (cs.flatMap String.utf8EncodeChar).foldlM Lexer.step lexer <;> rfl

theorem after?_cons {c : Char} {b : UInt8} (h : String.utf8EncodeChar c = [b]) (lexer : Lexer)
    (cs : List Char) : lexer.after? (c :: cs) = (lexer.step b).bind (·.after? cs) := by
  rw [show c :: cs = [c] ++ cs from rfl, after?_append]
  simp only [List.flatMap_cons, List.flatMap_nil, h, List.foldlM_cons, List.foldlM_nil,
    List.append_nil]
  cases lexer.step b <;> rfl

theorem tokens?_utf8 (cs : List Char) :
    tokens? (utf8 (String.ofList cs)) = after? ⟨.between, []⟩ cs := by
  rw [tokens?, utf8_ofList, after?]

end Lexer

/-! ## Digits of numerals -/

section Digits

variable (tokens : List Token) (cs : List Char)

theorem Lexer.after?_digit {n : OpenNumeral} (n' : OpenNumeral) {d : Digit}
    (h : n.digit? d = some n') :
    Lexer.after? ⟨.numeral n, tokens⟩ (d.toChar :: cs)
      = Lexer.after? ⟨.numeral n', tokens⟩ cs := by
  rw [after?_cons (utf8EncodeChar_toChar d)]
  simp [Lexer.step, OpenNumeral.next?, h]

/-- Digits are read one by one into the part of the numeral that grows. -/
theorem Lexer.after?_digits (grown : List Digit → OpenNumeral)
    (h : ∀ ds d, (grown ds).digit? d = some (grown (d :: ds))) (found ds : List Digit) :
    Lexer.after? ⟨.numeral (grown found), tokens⟩ (ofDigits ds ++ cs)
      = Lexer.after? ⟨.numeral (grown (ds.reverse ++ found)), tokens⟩ cs := by
  induction ds generalizing found with
  | nil => rfl
  | cons d ds ih =>
    rw [ofDigits, List.map_cons, List.cons_append, after?_digit tokens _ _ (h found d), ← ofDigits,
      ih]
    simp

/-! ## Whole numerals -/

/-- The text does not begin with a character that a numeral may go on with. -/
def Delimited (cs : List Char) : Prop :=
  ∀ c ∈ cs.head?, c = ',' ∨ c = ']' ∨ c = '\x7d' ∨ c = '\n'

theorem delimited_nil : Delimited [] := by simp [Delimited]

/-- A complete numeral is a token when its text ends. -/
theorem Lexer.after?_close {n : OpenNumeral} {numeral : Numeral} (h : n.close? = some numeral)
    (hcs : Delimited cs) :
    Lexer.after? ⟨.numeral n, tokens⟩ cs
      = Lexer.after? ⟨.between, .number numeral :: tokens⟩ cs := by
  cases cs with
  | nil => simp [after?, finish?, h]
  | cons c cs =>
    -- The characters that may follow are no part of a numeral, so they end it.
    have stops : ∀ b : UInt8, b = 0x2c ∨ b = 0x5d ∨ b = 0x7d ∨ b = 0x0a →
        Lexer.step ⟨.numeral n, tokens⟩ b = Lexer.step ⟨.between, .number numeral :: tokens⟩ b := by
      intro b hb
      have hdigit : digitOfOctet? b = none := by rcases hb with rfl | rfl | rfl | rfl <;> decide
      have hnext : n.next? b = none := by
        rcases hb with rfl | rfl | rfl | rfl <;>
          simp only [OpenNumeral.next?, hdigit] <;> split <;> simp
      simp [Lexer.step, hnext, h]
    rcases hcs c rfl with rfl | rfl | rfl | rfl
    all_goals
      rw [after?_cons (b := _) rfl, after?_cons (b := _) rfl, stops _ (by decide)]

/-- A first digit, with or without a sign in front, begins a numeral. Only one that is not zero may
have others after it. -/
theorem Lexer.after?_first (negative : Bool) (d : Digit) :
    Lexer.after? ⟨.between, tokens⟩ ((if negative then ['-'] else []) ++ d.toChar :: cs)
      = Lexer.after? ⟨.numeral ⟨if d = 0 then .zero else .whole, negative, [d], [], false, []⟩,
          tokens⟩ cs := by
  cases negative with
  | true =>
    rw [if_pos rfl, List.singleton_append, after?_cons (b := 0x2d) rfl]
    have hsign : Lexer.step ⟨.between, tokens⟩ 0x2d
        = some ⟨.numeral ⟨.sign, true, [], [], false, []⟩, tokens⟩ := rfl
    rw [hsign, Option.bind_some]
    exact after?_digit tokens cs _ rfl
  | false =>
    have hbegin : Lexer.step ⟨.between, tokens⟩ (digitOctet d)
        = some ⟨.numeral ⟨if d = 0 then .zero else .whole, false, [d], [], false, []⟩, tokens⟩ := by
      -- The digits are tried one by one.
      obtain ⟨i, hi⟩ := d
      interval_cases i <;> rfl
    rw [if_neg (by decide), List.nil_append, after?_cons (utf8EncodeChar_toChar d), hbegin]
    rfl

/-- The sign and the digits before the point begin a numeral. -/
theorem Lexer.after?_begin {n : Numeral} (hn : n.Proper) :
    ∃ part, (part = .zero ∨ part = .whole) ∧
      Lexer.after? ⟨.between, tokens⟩
          ((if n.negative then ['-'] else []) ++ (ofDigits n.whole ++ cs))
        = Lexer.after?
          ⟨.numeral ⟨part, n.negative, n.whole.reverse, [], false, []⟩, tokens⟩ cs := by
  -- A zero stands alone, and any other digit may have more after it.
  rcases hn.whole with hw | ⟨d, ds, hw, hd⟩
  · refine ⟨.zero, .inl rfl, ?_⟩
    rw [hw]
    exact after?_first tokens cs n.negative 0
  · refine ⟨.whole, .inr rfl, ?_⟩
    rw [hw, ofDigits, List.map_cons, List.cons_append, after?_first, if_neg hd, ← ofDigits,
      after?_digits tokens cs (fun ds => ⟨.whole, n.negative, ds, [], false, []⟩)
        (fun _ _ => rfl) [d] ds, List.reverse_cons]

/-- The point and the digits after it continue a numeral. -/
theorem Lexer.after?_point {part : NumeralPart} (hp : part = .zero ∨ part = .whole)
    (negative : Bool) (whole fraction : List Digit) :
    ∃ part', (part' = .zero ∨ part' = .whole ∨ part' = .fraction) ∧
      Lexer.after? ⟨.numeral ⟨part, negative, whole, [], false, []⟩, tokens⟩
          ((if fraction.isEmpty then [] else '.' :: ofDigits fraction) ++ cs)
        = Lexer.after? ⟨.numeral ⟨part', negative, whole, fraction.reverse, false, []⟩, tokens⟩
            cs := by
  -- Without a fraction there is no point.
  cases fraction with
  | nil =>
    refine ⟨part, ?_, rfl⟩
    rcases hp with rfl | rfl
    · exact .inl rfl
    · exact .inr (.inl rfl)
  | cons d ds =>
    refine ⟨.fraction, .inr (.inr rfl), ?_⟩
    have hpoint : Lexer.step ⟨.numeral ⟨part, negative, whole, [], false, []⟩, tokens⟩ 0x2e
        = some ⟨.numeral ⟨.point, negative, whole, [], false, []⟩, tokens⟩ := by
      rcases hp with rfl | rfl <;> rfl
    rw [List.isEmpty_cons, if_neg (by decide), List.cons_append, after?_cons (b := 0x2e) rfl,
      hpoint, Option.bind_some, ofDigits, List.map_cons, List.cons_append,
      after?_digit tokens _ ⟨.fraction, negative, whole, [d], false, []⟩ rfl, ← ofDigits,
      after?_digits tokens cs (fun ds => ⟨.fraction, negative, whole, ds, false, []⟩)
        (fun _ _ => rfl) [d] ds, List.reverse_cons]

/-- The mark, the sign and the digits of the exponent end a numeral. -/
theorem Lexer.after?_mark {part : NumeralPart}
    (hp : part = .zero ∨ part = .whole ∨ part = .fraction) (negative : Bool)
    (whole fraction : List Digit) (e : Exponent) (he : e.digits ≠ []) :
    Lexer.after? ⟨.numeral ⟨part, negative, whole, fraction, false, []⟩, tokens⟩
        ('e' :: (if e.negative then '-' else '+') :: ofDigits e.digits ++ cs)
      = Lexer.after? ⟨.numeral ⟨.exponent, negative, whole, fraction, e.negative,
          e.digits.reverse⟩, tokens⟩ cs := by
  have hmark : Lexer.step ⟨.numeral ⟨part, negative, whole, fraction, false, []⟩, tokens⟩ 0x65
      = some ⟨.numeral ⟨.mark, negative, whole, fraction, false, []⟩, tokens⟩ := by
    rcases hp with rfl | rfl | rfl <;> rfl
  have hsign : ∀ cs, Lexer.after? ⟨.numeral ⟨.mark, negative, whole, fraction, false, []⟩, tokens⟩
      ((if e.negative then '-' else '+') :: cs)
        = Lexer.after? ⟨.numeral ⟨.markSign, negative, whole, fraction, e.negative, []⟩, tokens⟩
            cs := by
    intro cs
    cases e.negative
    · exact after?_cons (b := 0x2b) rfl _ cs
    · exact after?_cons (b := 0x2d) rfl _ cs
  rw [List.cons_append, after?_cons (b := 0x65) rfl, hmark, Option.bind_some, List.cons_append,
    hsign]
  obtain ⟨d, ds, hds⟩ := List.exists_cons_of_ne_nil he
  rw [hds, ofDigits, List.map_cons, List.cons_append,
    after?_digit tokens _ ⟨.exponent, negative, whole, fraction, e.negative, [d]⟩ rfl,
    ← ofDigits, after?_digits tokens cs (fun ds => ⟨.exponent, negative, whole, fraction,
      e.negative, ds⟩) (fun _ _ => rfl) [d] ds, List.reverse_cons]

/-- A numeral in front of a delimited text is one token. -/
theorem Lexer.after?_render {n : Numeral} (hn : n.Proper) (hcs : Delimited cs) :
    Lexer.after? ⟨.between, tokens⟩ (n.render ++ cs)
      = Lexer.after? ⟨.between, .number n :: tokens⟩ cs := by
  obtain ⟨negative, whole, fraction, exponent⟩ := n
  simp only [Numeral.render, List.append_assoc]
  obtain ⟨part, hpart, hbegin⟩ := after?_begin tokens _ hn
  rw [hbegin]
  obtain ⟨part', hpart', hpoint⟩ := after?_point tokens _ hpart negative whole.reverse fraction
  rw [hpoint]
  -- The numeral may end before an exponent or behind it.
  cases exponent with
  | none =>
    apply after?_close tokens cs _ hcs
    rcases hpart' with rfl | rfl | rfl <;> simp [OpenNumeral.close?]
  | some e =>
    refine (after?_mark tokens cs hpart' negative _ _ e (hn.exponent e rfl)).trans ?_
    apply after?_close tokens cs _ hcs
    simp [OpenNumeral.close?]

end Digits

end FieldTelemetry.Json
