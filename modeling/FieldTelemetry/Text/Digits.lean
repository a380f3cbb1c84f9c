/-!
# Digits of natural numbers

Decimal and hexadecimal digits of a natural number, and the texts of a given minimal width
written from them.

## Main definitions

* `Digit`: a decimal digit
* `digits`, `value`: a natural number as its decimal digits, most significant first, and back
* `decimal`, `padded`, `hex`: texts of a natural number
-/

namespace FieldTelemetry.Text

/-- A decimal digit. -/
abbrev Digit := Fin 10

/-- There are digits, so that they have a zero. -/
instance Digit.neZero : @NeZero Nat Zero.ofOfNat0 10 := ⟨by decide⟩

/-- The last `count` decimal digits of `n`, most significant first, in front of `tail`. -/
def lastDigits : (count : Nat) → (n : Nat) → List Digit → List Digit
  | 0, _, tail => tail
  | count + 1, n, tail => lastDigits count (n / 10) (Fin.ofNat 10 n :: tail)

/-- The number of decimal digits of `n`, where zero has one. `fuel` bounds the search; `n` itself
is always enough. -/
def digitCountWithin : (fuel : Nat) → (n : Nat) → Nat
  | 0, _ => 1
  | fuel + 1, n => if n < 10 then 1 else digitCountWithin fuel (n / 10) + 1

/-- The number of decimal digits of `n`, where zero has one. A binary digit carries less than a
decimal one, so the binary length bounds the search. -/
def digitCount (n : Nat) : Nat := digitCountWithin (n.log2 + 1) n

/-- The decimal digits of `n`, most significant first and without leading zeros. -/
def digits (n : Nat) : List Digit := lastDigits (digitCount n) n []

/-- The number that a list of decimal digits denotes. -/
def value (ds : List Digit) : Nat := ds.foldl (fun n d => 10 * n + d.val) 0

/-- The character of a decimal digit. -/
def Digit.toChar (d : Digit) : Char := Char.ofNat ('0'.toNat + d.val)

/-- The digit a character stands for, if it is one of `0` to `9`. -/
def digitOf? (c : Char) : Option Digit :=
  if '0' ≤ c ∧ c ≤ '9' then some (Fin.ofNat 10 (c.toNat - '0'.toNat)) else none

/-- The digit an octet stands for, if it is one of `0` to `9` in ASCII. -/
def digitOfOctet? (b : UInt8) : Option Digit :=
  if 0x30 ≤ b ∧ b ≤ 0x39 then some (Fin.ofNat 10 (b.toNat - 0x30)) else none

/-- The characters of a list of digits. -/
def ofDigits (ds : List Digit) : List Char := ds.map Digit.toChar

/-- The decimal text of `n`. -/
def decimal (n : Nat) : String := String.ofList (ofDigits (digits n))

/-- The decimal text of an integer, with a minus sign when it is negative. -/
def integer (n : Int) : String :=
  if n < 0 then "-" ++ decimal n.natAbs else decimal n.natAbs

/-- The decimal text of `n`, filled with zeros on the left to at least `width` digits. -/
def padded (width n : Nat) : String :=
  String.ofList (ofDigits (lastDigits (max width (digitCount n)) n []))

/-- The character of a hexadecimal digit, in lower case. -/
def hexChar (d : Fin 16) : Char :=
  if d.val < 10 then Char.ofNat ('0'.toNat + d.val) else Char.ofNat ('a'.toNat + (d.val - 10))

/-- The hexadecimal digit a character stands for, in either case. -/
def hexOf? (c : Char) : Option (Fin 16) :=
  if '0' ≤ c ∧ c ≤ '9' then some (Fin.ofNat 16 (c.toNat - '0'.toNat))
  else if 'a' ≤ c ∧ c ≤ 'f' then some (Fin.ofNat 16 (c.toNat - 'a'.toNat + 10))
  else if 'A' ≤ c ∧ c ≤ 'F' then some (Fin.ofNat 16 (c.toNat - 'A'.toNat + 10))
  else none

/-- The last `count` hexadecimal digits of `n`, most significant first, in front of `tail`. -/
def lastHexDigits : (count : Nat) → (n : Nat) → List Char → List Char
  | 0, _, tail => tail
  | count + 1, n, tail => lastHexDigits count (n / 16) (hexChar (Fin.ofNat 16 n) :: tail)

/-- The hexadecimal text of `n` in lower case, without leading zeros. -/
def hex (n : Nat) : String := String.ofList (lastHexDigits (n.log2 / 4 + 1) n [])

/-- The hexadecimal text of `n` in lower case, exactly `width` digits of it. -/
def paddedHex (width n : Nat) : String := String.ofList (lastHexDigits width n [])

end FieldTelemetry.Text
