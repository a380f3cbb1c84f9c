import FieldTelemetry.Number.Binary
import FieldTelemetry.Text.Digits

/-!
# Numbers read from texts

The texts of whole numbers with a sign, and of decimals with fraction and exponent, as settings and
header fields write them.

## Main definitions

* `signed?`, `unsigned?`: whole numbers
* `Binary32.ofDecimal`: the number nearest to a decimal
* `Binary32.ofText?`: the number a text denotes
-/

namespace FieldTelemetry.Text

/-- The longest run of digits in front, and what follows it. -/
def takeDigits : List Char → List Digit × List Char
  | [] => ([], [])
  | c :: rest =>
    match digitOf? c with
    | some d => let (ds, tail) := takeDigits rest; (d :: ds, tail)
    | none => ([], c :: rest)

/-- One or more digits and nothing else. -/
def natural? (cs : List Char) : Option Nat :=
  match takeDigits cs with
  | (d :: ds, []) => some (value (d :: ds))
  | _ => none

/-- A sign in front, true for minus, and what follows it. -/
def takeSign : List Char → Bool × List Char
  | '+' :: rest => (false, rest)
  | '-' :: rest => (true, rest)
  | cs => (false, cs)

/-- A whole number with an optional sign. -/
def signed? (text : String) : Option Int :=
  let (negative, cs) := takeSign text.toList
  (natural? cs).map fun n => if negative then -(n : Int) else n

/-- A whole number with an optional plus sign. -/
def unsigned? (text : String) : Option Nat :=
  match text.toList with
  | '+' :: cs => natural? cs
  | cs => natural? cs

end FieldTelemetry.Text

namespace FieldTelemetry.Binary32

open Binary Text

/-- The number nearest to `n * 10 ^ exponent`. Decimals of forty digits before the point exceed
the format, and those below sixty places after it vanish, so the powers stay small. -/
def ofDecimal (negative : Bool) (n : Nat) (exponent : Int) : Binary32 :=
  let size : Int := exponent + digitCount n
  if n = 0 ∨ size < -60 then ofMagnitude negative (.finite 0 (-149))
  else if 40 < size then ofMagnitude negative .infinite
  else if 0 ≤ exponent then ofQuotient negative (n * Nat.pow 10 exponent.toNat) 1
  else ofQuotient negative n (Nat.pow 10 (-exponent).toNat)

/-- An exponent mark with its digits, or nothing, to the end of the text. -/
def exponentPart? : List Char → Option Int
  | [] => some 0
  | mark :: rest =>
    if mark = 'e' ∨ mark = 'E' then
      let (negative, cs) := takeSign rest
      (natural? cs).map fun n => if negative then -(n : Int) else n
    else none

/-- Digits with an optional point among or around them and an optional exponent. -/
def decimal? (negative : Bool) (cs : List Char) : Option Binary32 :=
  let (whole, rest) := takeDigits cs
  let (fraction, rest) : List Digit × List Char :=
    match rest with
    | '.' :: more => takeDigits more
    | rest => ([], rest)
  if whole.isEmpty && fraction.isEmpty then none
  else
    (exponentPart? rest).map fun exponent =>
      ofDecimal negative (value (whole ++ fraction)) (exponent - fraction.length)

/-- The number a text denotes: a decimal, or one of the words for infinity and NaN in any case,
with an optional sign. -/
def ofText? (text : String) : Option Binary32 :=
  let (negative, cs) := takeSign text.toList
  let word := String.ofList (cs.map Char.toLower)
  if word = "inf" ∨ word = "infinity" then some (ofMagnitude negative .infinite)
  else if word = "nan" then some (nan negative)
  else decimal? negative cs

end FieldTelemetry.Binary32
