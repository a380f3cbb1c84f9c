import FieldTelemetry.Number.Shortest

/-!
# Numerals of JSON

A numeral of JSON as written, what it denotes as a whole number or as a number of the single
format, and the numerals written for both.

A numeral with a point or an exponent, and a whole number beyond sixty-four bits, is read in steps
of the double format: its leading digits, as many as fit in sixty-four bits, are scaled by one
power of ten.

## Main definitions

* `Numeral`: sign, digits and exponent of a numeral
* `Numeral.integer?`: the whole number a numeral denotes
* `Numeral.single?`: the number of the single format a numeral denotes
* `Numeral.ofInt`, `Numeral.ofSingle?`: the numerals written for numbers
-/

namespace FieldTelemetry.Json

open Binary Text

/-- The exponent of a numeral. -/
structure Exponent where
  /-- A minus sign stands in front. -/
  negative : Bool
  /-- Its digits. -/
  digits : List Digit
deriving DecidableEq, Repr

/-- A numeral as written. -/
structure Numeral where
  /-- A minus sign stands in front. -/
  negative : Bool
  /-- Digits before the point. -/
  whole : List Digit
  /-- Digits after the point, none when there is no point. -/
  fraction : List Digit
  /-- The exponent, if there is one. -/
  exponent : Option Exponent
deriving DecidableEq, Repr

namespace Numeral

/-- The largest number of sixty-four bits. -/
def wordLimit : Nat := 0xffffffffffffffff

/-- The whole number that a numeral without point and exponent denotes, within sixty-four bits
with or without a sign. Negative zero is not a whole number. -/
def integer? (n : Numeral) : Option Int :=
  if n.fraction.isEmpty && n.exponent.isNone then
    let v := value n.whole
    if n.negative then if v = 0 ∨ 0x8000000000000000 < v then none else some (-(v : Int))
    else if wordLimit < v then none else some v
  else none

/-- The digits that fit in sixty-four bits and how many further digits were left out. -/
def leadingWord : (word : Nat) → List Digit → Nat × Nat
  | word, [] => (word, 0)
  | word, d :: ds =>
    let next := 10 * word + d.val
    if wordLimit < next then (word, ds.length + 1) else leadingWord next ds

/-- The digits after the point that still fit, with their number. -/
def fractionWord (word : Nat) (ds : List Digit) : Nat × Nat :=
  let (word, left) := leadingWord word ds
  (word, ds.length - left)

/-- Largest power of ten that is scaled by in one step. -/
def stepLimit : Nat := 308

/-- The power of ten in the double format. -/
def power (n : Nat) : Magnitude := Format.double.round (Nat.pow 10 n) 1

/-- `magnitude * 10 ^ exponent`, scaled down in steps when the exponent is far below zero. The
result is absent when it exceeds the format. -/
def scaleDown : (steps : Nat) → Magnitude → (exponent : Nat) → Magnitude
  | 0, magnitude, _ => magnitude
  | steps + 1, magnitude, exponent =>
    if exponent ≤ stepLimit then Format.double.divide magnitude (power exponent)
    else scaleDown steps (Format.double.divide magnitude (power stepLimit)) (exponent - stepLimit)

/-- A word times a power of ten, in the double format. Four steps down reach zero from any word.
Beyond the format there is no result. -/
def scaled? (word : Nat) (exponent : Int) : Option Magnitude :=
  let start := Format.double.round word 1
  if word = 0 then some start
  else if exponent < 0 then some (scaleDown 4 start (-exponent).toNat)
  else if stepLimit < exponent.toNat then none
  else
    match Format.double.multiply start (power exponent.toNat) with
    | .infinite => none
    | magnitude => some magnitude

/-- The largest exponent that is counted exactly. -/
def exponentLimit : Nat := 0x7fffffff

/-- The magnitude of a numeral in the double format, absent when it exceeds the format. -/
def double? (n : Numeral) : Option Magnitude :=
  let (word, left) := leadingWord 0 n.whole
  let (word, places) := fractionWord word n.fraction
  let start : Int := (left : Int) - (places : Int)
  match n.exponent with
  | none => scaled? word start
  | some e =>
    let size := value e.digits
    if exponentLimit < size then
      if word ≠ 0 ∧ e.negative = false then none else some (.finite 0 Format.double.minExponent)
    else scaled? word (if e.negative then start - size else start + size)

/-- The number of the single format that a numeral denotes. A whole number is rounded once, any
other numeral by way of the double format. -/
def single? (n : Numeral) : Option Binary32 :=
  match n.integer? with
  | some v => some (.ofQuotient (v < 0) v.natAbs 1)
  | none => n.double?.map (.narrow n.negative)

/-- The numeral of a natural number. -/
def ofNat (n : Nat) : Numeral := ⟨false, digits n, [], none⟩

/-- The numeral of a whole number. -/
def ofInt (n : Int) : Numeral := ⟨n < 0, digits n.natAbs, [], none⟩

/-- How a decimal is laid out. -/
structure Layout where
  /-- Least exponent that is written positionally. -/
  least : Int
  /-- Greatest exponent that is written positionally. -/
  greatest : Int
deriving DecidableEq, Repr

/-- Numbers are written positionally from a millionth to below ten million millions, with at least
one digit on both sides of the point, and in scientific form elsewhere. -/
def layout : Layout := ⟨-6, 12⟩

/-- A decimal laid out as a numeral. -/
def ofDecimal (layout : Layout) (negative : Bool) (decimal : Decimal) : Numeral :=
  let ds := decimal.digits
  let e := decimal.exponent
  if layout.least ≤ e ∧ e ≤ layout.greatest then
    if e < 0 then
      ⟨negative, [0], List.replicate ((-e).toNat - 1) 0 ++ ds, none⟩
    else
      let whole := ds.take (e.toNat + 1)
      let fraction := ds.drop (e.toNat + 1)
      ⟨negative, whole ++ List.replicate (e.toNat + 1 - whole.length) 0,
        if fraction.isEmpty then [0] else fraction, none⟩
  else ⟨negative, ds.take 1, ds.drop 1, some ⟨e < 0, digits e.natAbs⟩⟩

/-- The numeral of a number of the single format: the shortest decimal that rounds to it. An
infinity or a NaN has none. -/
def ofSingle? (x : Binary32) : Option Numeral :=
  x.finite?.map fun (m, q) =>
    if m = 0 then ⟨x.negative, [0], [0], none⟩
    else ofDecimal layout x.negative (Format.single.shortest m q)

/-- The text of a numeral. -/
def render (n : Numeral) : List Char :=
  (if n.negative then ['-'] else []) ++ ofDigits n.whole
    ++ (if n.fraction.isEmpty then [] else '.' :: ofDigits n.fraction)
    ++ (match n.exponent with
        | none => []
        | some e => 'e' :: (if e.negative then '-' else '+') :: ofDigits e.digits)

end Numeral

end FieldTelemetry.Json
