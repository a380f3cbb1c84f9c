import FieldTelemetry.Text.Digits
import FieldTelemetry.Text.Octets

/-!
# Base64

Octets are written with sixty-four symbols, four for every three octets. A text that is short of
symbols is filled with padding. Every sequence of octets has one text, and no other text is read.

## Main definitions

* `Base64.encode`: the text of octets
* `Base64.decode`: the octets of a text
* `Base64.DecodeError`: why a text has no octets
-/

namespace FieldTelemetry.Net.Base64

/-! ## Symbols -/

/-- The symbols in the order of their values. -/
def symbols : List Char :=
  "ABCDEFGHIJKLMNOPQRSTUVWXYZabcdefghijklmnopqrstuvwxyz0123456789+/".toList

/-- The symbol of a value below sixty-four. -/
def symbol (value : Nat) : Char := symbols.getD value 'A'

/-- The value of a symbol in ASCII. -/
def value? (b : UInt8) : Option Nat :=
  let n := b.toNat
  if 65 ≤ n ∧ n ≤ 90 then some (n - 65)
  else if 97 ≤ n ∧ n ≤ 122 then some (n - 71)
  else if 48 ≤ n ∧ n ≤ 57 then some (n + 4)
  else if n = 43 then some 62
  else if n = 47 then some 63
  else none

/-- The padding in ASCII. -/
def padding : UInt8 := 61

/-! ## Writing -/

/-- The symbols of octets. -/
def encodeChars : Octets → List Char
  | [] => []
  | [a] => [symbol (a.toNat / 4), symbol (a.toNat % 4 * 16), '=', '=']
  | [a, b] =>
    [symbol (a.toNat / 4), symbol (a.toNat % 4 * 16 + b.toNat / 16), symbol (b.toNat % 16 * 4), '=']
  | a :: b :: c :: rest =>
    symbol (a.toNat / 4) :: symbol (a.toNat % 4 * 16 + b.toNat / 16)
      :: symbol (b.toNat % 16 * 4 + c.toNat / 64) :: symbol (c.toNat % 64) :: encodeChars rest

/-- The text of octets. -/
def encode (octets : Octets) : String := String.ofList (encodeChars octets)

/-! ## Reading -/

/-- Why a text has no octets. -/
inductive DecodeError
  /-- An octet of the text is no symbol. -/
  | symbol (octet : UInt8) (offset : Nat)
  /-- The text ends with a single symbol. -/
  | length (count : Nat)
  /-- The last symbol has bits that belong to no octet. -/
  | lastSymbol (octet : UInt8) (offset : Nat)
  /-- Padding is missing. -/
  | padding
deriving DecidableEq, Repr

/-- The wording of an error. -/
def DecodeError.message : DecodeError → String
  | .symbol octet offset =>
    "Invalid symbol " ++ Text.decimal octet.toNat ++ ", offset " ++ Text.decimal offset ++ "."
  | .length count => "Invalid input length: " ++ Text.decimal count
  | .lastSymbol octet offset =>
    "Invalid last symbol " ++ Text.decimal octet.toNat ++ ", offset " ++ Text.decimal offset ++ "."
  | .padding => "Invalid padding"

/-- The value of the symbol at an offset. -/
def valueAt (offset : Nat) (b : UInt8) : Except DecodeError Nat :=
  match value? b with
  | some n => .ok n
  | none => .error (.symbol b offset)

/-- The three octets of four values. -/
def triple (a b c d : Nat) : Octets :=
  [.ofNat (a * 4 + b / 16), .ofNat (b % 16 * 16 + c / 4), .ofNat (c % 4 * 64 + d)]

/-- The symbols of the last four octets of a text with their values, and the number of paddings
behind them. `index` counts the symbols before them. -/
def lastSymbols (offset : Nat) : (index : Nat) → Octets →
    Except DecodeError (List (UInt8 × Nat) × Nat)
  | _, [] => .ok ([], 0)
  | index, b :: rest =>
    -- Padding is not counted among the symbols, but it must reach to the end.
    if b = padding then
      if index < 2 then .error (.symbol b (offset + index))
      else if rest.all (· == padding) then .ok ([], rest.length + 1)
      else .error (.symbol b (offset + index))
    else do
      let n ← valueAt (offset + index) b
      let (found, paddings) ← lastSymbols offset (index + 1) rest
      return ((b, n) :: found, paddings)

/-- The octets of the last symbols of a text. -/
def lastOctets (offset : Nat) (octets : Octets) : Except DecodeError Octets := do
  let (found, paddings) ← lastSymbols offset 0 octets
  if octets ≠ [] ∧ found.length < 2 then .error (.length (offset + found.length))
  else if (found.length + paddings) % 4 ≠ 0 then .error .padding
  else
    match found with
    | [(_, a), (s, b)] =>
      if b % 16 ≠ 0 then .error (.lastSymbol s (offset + 1)) else .ok ((triple a b 0 0).take 1)
    | [(_, a), (_, b), (s, c)] =>
      if c % 4 ≠ 0 then .error (.lastSymbol s (offset + 2)) else .ok ((triple a b c 0).take 2)
    | [(_, a), (_, b), (_, c), (_, d)] => .ok (triple a b c d)
    | _ => .ok []

/-- The octets of a text from an offset on. Padding may stand in the last four symbols only. -/
def decodeFrom (offset : Nat) : Octets → Except DecodeError Octets
  | a :: b :: c :: d :: e :: rest => do
    let first := triple (← valueAt offset a) (← valueAt (offset + 1) b) (← valueAt (offset + 2) c)
      (← valueAt (offset + 3) d)
    return first ++ (← decodeFrom (offset + 4) (e :: rest))
  | octets => lastOctets offset octets

/-- What stands alone behind complete groups of four and is neither symbol nor padding. -/
def strayEnd? (octets : Octets) : Option UInt8 :=
  if octets.length % 4 = 1 then
    octets.getLast?.filter fun b => b != padding && (value? b).isNone
  else none

/-- The octets of a text in ASCII. A stray octet at the end is reported before anything else. -/
def decode (octets : Octets) : Except DecodeError Octets :=
  match strayEnd? octets with
  | some b => .error (.symbol b (octets.length - 1))
  | none => decodeFrom 0 octets

end FieldTelemetry.Net.Base64
