import FieldTelemetry.Number.Binary
import FieldTelemetry.Text.Digits

/-!
# Shortest decimals

Among the decimals that round to a given number of the single format, the ones with the fewest
digits, and of these the nearest to the number.

## Main definitions

* `Decimal`: a positive decimal in scientific form
* `Interval`: the reals that round to a number
* `shortest`: the shortest decimal of a finite positive number
-/

namespace FieldTelemetry.Binary

/-- The decimal `d.ddd * 10 ^ exponent`. -/
structure Decimal where
  /-- Significant digits, the first in front of the point. -/
  digits : List Text.Digit
  /-- Power of ten of the first digit. -/
  exponent : Int
deriving DecidableEq, Repr

/-- The reals that round to a number, in units of `unit / 2 ^ shift`. Both ends belong to it, or
neither does. -/
structure Interval where
  /-- Lower end. -/
  low : Nat
  /-- The number itself. -/
  middle : Nat
  /-- Upper end. -/
  high : Nat
  /-- Denominator of all three. -/
  den : Nat
  /-- The ends belong to the interval. -/
  closed : Bool
deriving DecidableEq, Repr

/-- The reals that round to `m * 2 ^ q` in a format. Halfway to either neighbour is the end, and
the lower neighbour of a power of two is half as far. A tie goes to the even significand, so the
ends round to even significands only. -/
def Format.interval (format : Format) (m : Nat) (q : Int) : Interval :=
  let below := if m = Nat.pow 2 (format.precision - 1) ∧ format.minExponent < q then 1 else 2
  let exponent := q - 2
  let unit := Nat.pow 2 exponent.toNat
  { low := (4 * m - below) * unit
    middle := 4 * m * unit
    high := (4 * m + 2) * unit
    den := Nat.pow 2 (-exponent).toNat
    closed := m % 2 == 0 }

/-- The real `num / den` lies in the interval. -/
def Interval.contains (i : Interval) (num den : Nat) : Bool :=
  let x := num * i.den
  if i.closed then i.low * den ≤ x && x ≤ i.high * den
  else i.low * den < x && x < i.high * den

/-- Numerator and denominator of `n * 10 ^ scale`. -/
def powerOfTen (n : Nat) (scale : Int) : Nat × Nat :=
  (n * Nat.pow 10 scale.toNat, Nat.pow 10 (-scale).toNat)

/-- The exponent of the leading decimal digit of `num / den`, for positive `num` and `den`. -/
def leadingDecimalExponent (num den : Nat) : Int :=
  let estimate : Int := (Text.digitCount num : Int) - (Text.digitCount den : Int)
  let (n, d) := powerOfTen 1 estimate
  if n * den ≤ num * d then estimate else estimate - 1

/-- The multiple of `10 ^ scale` in the interval that is nearest to the middle, if there is one: it
is one of the middle's two neighbours. A tie goes to the even multiple. -/
def Interval.multiple? (i : Interval) (scale : Int) : Option Nat :=
  let (unit, unitDen) := powerOfTen 1 scale
  let below := i.middle * unitDen / (i.den * unit)
  let remainder := 2 * (i.middle * unitDen % (i.den * unit))
  let inside (n : Nat) : Bool := i.contains (n * unit) unitDen
  if inside below && inside (below + 1) then
    -- Both neighbours round to the number: the nearer one is taken.
    if remainder < i.den * unit then some below
    else if i.den * unit < remainder then some (below + 1)
    else some (below + below % 2)
  else if inside below then some below
  else if inside (below + 1) then some (below + 1)
  else none

/-- The first multiple in the interval among grids of `10 ^ scale` and finer ones, with its scale.
After `grids` of them the search ends with zero. -/
def Interval.search (i : Interval) : (grids : Nat) → (scale : Int) → Nat × Int
  | 0, scale => (0, scale)
  | grids + 1, scale =>
    match i.multiple? scale with
    | some n => if n = 0 then i.search grids (scale - 1) else (n, scale)
    | none => i.search grids (scale - 1)

/-- Digits without the zeros at their end. -/
def dropTrailingZeros (ds : List Text.Digit) : List Text.Digit :=
  (ds.reverse.dropWhile (· == 0)).reverse

/-- The decimal `n * 10 ^ scale` in scientific form. -/
def Decimal.ofScaled (n : Nat) (scale : Int) : Decimal :=
  let ds := Text.digits n
  { digits := dropTrailingZeros ds, exponent := scale + ((ds.length : Int) - 1) }

/-- The decimal with the fewest digits that rounds to `m * 2 ^ q` in a format, and the nearest to it
of those. Seventeen digits are always enough for the formats in use. -/
def Format.shortest (format : Format) (m : Nat) (q : Int) : Decimal :=
  let i := format.interval m q
  let (n, scale) := i.search 17 (leadingDecimalExponent i.middle i.den)
  .ofScaled n scale

end FieldTelemetry.Binary
