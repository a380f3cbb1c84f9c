import FieldTelemetry.Json.Number
import FieldTelemetry.Toml.Reader

/-!
# Numbers

Whole numbers have sixty-four bits with a sign, and may be written in one of four bases. Floats have
a point or an exponent. An underscore may stand between two digits.

## Main definitions

* `Float`: a float
* `Reader.number`: a number as it is written
-/

namespace FieldTelemetry.Toml

open Json (Exponent Numeral)
open Text (Digit)

/-- A float. -/
inductive Float
  /-- A number within the range of the double format. -/
  | finite (numeral : Numeral)
  /-- A number beyond the range, or infinity. -/
  | infinite (negative : Bool)
  /-- No number. -/
  | undefined
deriving DecidableEq, Repr

/-- The range of the double format is reached by numbers of some three hundred digits, and it has no
need of powers of ten beyond them. -/
def Float.ofNumeral (numeral : Numeral) : Float :=
  let n := Text.value (numeral.whole ++ numeral.fraction)
  let exponent : Int := numeral.exponent.elim 0 fun e =>
    if e.negative then -(Text.value e.digits : Int) else Text.value e.digits
  let shift := exponent - numeral.fraction.length
  let size : Int := shift + Text.digitCount n
  if n = 0 ∨ size < 300 then .finite numeral
  else if 320 < size then .infinite numeral.negative
  else
    let (num, den) := Binary.powerOfTen n shift
    match Binary.Format.double.round num den with
    | .infinite => .infinite numeral.negative
    | _ => .finite numeral

namespace Reader

/-! ## Digits -/

/-- Figures that stand alone or have single underscores between them. -/
def figures (p : Char → Bool) : Reader (List Char) := do
  let run ← takeWhile fun c => p c || c == '_'
  let isLoose := fun (pair : Char × Char) => pair.1 == '_' && pair.2 == '_'
  guard (run.head?.any (· ≠ '_') && run.getLast?.any (· ≠ '_'))
  guard !(run.zip run.tail).any isLoose
  return run.filter (· ≠ '_')

/-- Decimal digits. -/
def decimal : Reader (List Digit) := do
  return (← figures fun c => (Text.digitOf? c).isSome).filterMap Text.digitOf?

/-- Decimal digits without a zero in front of others. -/
def plainDecimal : Reader (List Digit) := do
  let ds ← decimal
  guard (ds.head? ≠ some 0 ∨ ds.length = 1)
  return ds

/-- A sign, true for minus. -/
def sign : Reader Bool := do
  if ← taken "-" then return true
  discard (taken "+")
  return false

/-! ## Numbers -/

/-- A whole number within sixty-four bits. -/
def within (n : Int) : Reader Int := do
  guard (Int64.minValue.toInt ≤ n ∧ n ≤ Int64.maxValue.toInt)
  return n

/-- A whole number in a base of at most sixteen, behind the letter of the base. -/
def based (base : Nat) : Reader Int := do
  let isFigure := fun c => (Text.hexOf? c).any (·.val < base)
  let ds := (← figures isFigure).filterMap Text.hexOf?
  within (ds.foldl (fun n d => base * n + d.val) 0 : Nat)

/-- The exponent of a float, if there is one. -/
def exponent : Reader (Option Exponent) := do
  match ← next? with
  | some 'e' | some 'E' =>
    discard (takeOne fun _ => true)
    let negative ← sign
    return some ⟨negative, ← decimal⟩
  | _ => return none

/-- A number in decimal digits, behind its sign. -/
def decimalNumber (negative : Bool) : Reader (Int ⊕ Float) := do
  let whole ← plainDecimal
  let fraction ← if ← taken "." then decimal else pure []
  let exponent ← exponent
  if fraction.isEmpty && exponent.isNone then
    let n : Int := Text.value whole
    return .inl (← within (if negative then -n else n))
  match Float.ofNumeral ⟨negative, whole, fraction, exponent⟩ with
  | .infinite false => failure
  | float => return .inr float

/-- A number as it is written. A base is announced by zero and a letter, without a sign. A float
that is written in digits does not exceed the range of the double format above. -/
def number : Reader (Int ⊕ Float) := do
  if ← taken "0x" then return .inl (← based 16)
  if ← taken "0o" then return .inl (← based 8)
  if ← taken "0b" then return .inl (← based 2)
  let negative ← sign
  if ← taken "inf" then return .inr (.infinite negative)
  if ← taken "nan" then return .inr .undefined
  return ← decimalNumber negative

end Reader

end FieldTelemetry.Toml
