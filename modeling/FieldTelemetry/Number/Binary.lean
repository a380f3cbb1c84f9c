/-!
# Binary floating-point formats

The finite numbers of a binary format are the products of a bounded natural number and a power of
two. Exact quotients are rounded to the nearest of them, a tie going to the even significand.

## Main definitions

* `Format`, `Format.single`, `Format.double`: the shape of a format, and the two in use
* `Magnitude`: a nonnegative number of a format, or overflow
* `Format.round`: the number of the format nearest to a quotient
* `Binary32`: a number in the single format, kept as its bits
* `Binary32.SameNumber`: the equality of numbers, for which zeros agree and nothing equals a NaN
-/

namespace FieldTelemetry

namespace Binary

/-- The shape of a binary format. Its finite magnitudes are `m * 2 ^ q` with `m < 2 ^ precision`
and `minExponent ≤ q ≤ maxExponent`. -/
structure Format where
  /-- Number of significant bits. -/
  precision : Nat
  /-- Exponent of the least unit. -/
  minExponent : Int
  /-- Exponent of the unit of the largest numbers. -/
  maxExponent : Int
deriving DecidableEq, Repr

/-- The format with 24 significant bits in 32. -/
def Format.single : Format := ⟨24, -149, 104⟩

/-- The format with 53 significant bits in 64. -/
def Format.double : Format := ⟨53, -1074, 971⟩

/-- A nonnegative number of a format. -/
inductive Magnitude
  /-- The number `significand * 2 ^ exponent`. -/
  | finite (significand : Nat) (exponent : Int)
  /-- Beyond the largest finite number. -/
  | infinite
deriving DecidableEq, Repr

/-- Numerator and denominator of `num / den / 2 ^ q`. -/
def unscale (num den : Nat) (q : Int) : Nat × Nat :=
  if 0 ≤ q then (num, den * Nat.pow 2 q.toNat) else (num * Nat.pow 2 (-q).toNat, den)

/-- The natural number nearest to `num / den`, a tie going to the even one. -/
def nearestEven (num den : Nat) : Nat :=
  let quotient := num / den
  let twice := 2 * (num % den)
  if twice < den then quotient
  else if den < twice then quotient + 1
  else quotient + quotient % 2

/-- The exponent of the leading bit of `num / den`, for positive `num` and `den`. -/
def leadingExponent (num den : Nat) : Int :=
  let estimate : Int := (num.log2 : Int) - (den.log2 : Int)
  let (n, d) := unscale num den estimate
  if d ≤ n then estimate else estimate - 1

/-- The number of the format nearest to `num / den`, a tie going to the even significand. -/
def Format.round (format : Format) (num den : Nat) : Magnitude :=
  if num = 0 then .finite 0 format.minExponent
  else
    let q := max (leadingExponent num den - (format.precision - 1 : Int)) format.minExponent
    let (n, d) := unscale num den q
    let m := nearestEven n d
    let (m, q) :=
      if m = Nat.pow 2 format.precision then (Nat.pow 2 (format.precision - 1), q + 1) else (m, q)
    if format.maxExponent < q then .infinite else .finite m q

/-- The number of the format nearest to `m * 2 ^ q`. -/
def Format.roundDyadic (format : Format) (m : Nat) (q : Int) : Magnitude :=
  let (n, d) := unscale m 1 (-q)
  format.round n d

/-- The magnitude of a product, rounded to the format. -/
def Format.multiply (format : Format) : Magnitude → Magnitude → Magnitude
  | .finite m q, .finite n r => format.roundDyadic (m * n) (q + r)
  | _, _ => .infinite

/-- The magnitude of a quotient by a positive finite number, rounded to the format. -/
def Format.divide (format : Format) : Magnitude → Magnitude → Magnitude
  | .finite m q, .finite n r =>
    let (num, den) := unscale m n (r - q)
    format.round num den
  | .finite _ _, .infinite => .finite 0 format.minExponent
  | .infinite, _ => .infinite

end Binary

/-- A number in the single binary format, kept as its bits: the sign, eight bits of exponent and
twenty-three bits of significand. Equality is equality of bits. -/
structure Binary32 where
  /-- The bits of the number. -/
  bits : UInt32
deriving DecidableEq, Repr, Inhabited

namespace Binary32

open Binary

/-- The sign bit. -/
def negative (x : Binary32) : Bool := x.bits.toNat / 0x80000000 == 1

/-- The eight bits of exponent. -/
def exponentBits (x : Binary32) : Nat := x.bits.toNat / 0x800000 % 0x100

/-- The twenty-three bits of significand. -/
def significandBits (x : Binary32) : Nat := x.bits.toNat % 0x800000

/-- Neither finite nor infinite. -/
def isNaN (x : Binary32) : Bool := x.exponentBits == 255 && x.significandBits != 0

/-- Both zeros. -/
def isZero (x : Binary32) : Bool := x.exponentBits == 0 && x.significandBits == 0

/-- Significand and exponent of a finite number. -/
def finite? (x : Binary32) : Option (Nat × Int) :=
  if x.exponentBits = 255 then none
  else if x.exponentBits = 0 then some (x.significandBits, -149)
  else some (0x800000 + x.significandBits, (x.exponentBits : Int) - 150)

/-- The number with a sign and a magnitude of the single format. -/
def ofMagnitude (negative : Bool) (magnitude : Magnitude) : Binary32 :=
  let sign := if negative then 0x80000000 else 0
  match magnitude with
  | .infinite => ⟨UInt32.ofNat (sign + 0x7f800000)⟩
  | .finite m q =>
    if m < 0x800000 then ⟨UInt32.ofNat (sign + m)⟩
    else ⟨UInt32.ofNat (sign + (q + 150).toNat * 0x800000 + (m - 0x800000))⟩

/-- The number nearest to `num / den` with a sign. -/
def ofQuotient (negative : Bool) (num den : Nat) : Binary32 :=
  ofMagnitude negative (Format.single.round num den)

/-- The number nearest to a magnitude of a wider format. -/
def narrow (negative : Bool) : Magnitude → Binary32
  | .infinite => ofMagnitude negative .infinite
  | .finite m q => ofMagnitude negative (Format.single.roundDyadic m q)

/-- A number that is not a number. -/
def nan (negative : Bool) : Binary32 := if negative then ⟨0xffc00000⟩ else ⟨0x7fc00000⟩

/-- The equality of numbers: both zeros are equal, and no NaN equals anything. -/
def SameNumber (x y : Binary32) : Prop :=
  x.isNaN = false ∧ y.isNaN = false ∧ (x = y ∨ (x.isZero = true ∧ y.isZero = true))

instance (x y : Binary32) : Decidable (SameNumber x y) := by
  unfold SameNumber; infer_instance

end Binary32

end FieldTelemetry
