import FieldTelemetry.Number.Reading

/-!
# Addresses of peers

An address has four octets or eight groups of sixteen bits. The longest run of at least two zero
groups is written as two colons, and so it is read. The address of a peer has a port behind it.

## Main definitions

* `Address`: an address
* `Address.render`: the text of an address
* `Address.ofPeer?`: the address of a text with a port
-/

namespace FieldTelemetry.Net

/-- An address. -/
inductive Address
  /-- Four octets. -/
  | short (a b c d : Nat)
  /-- Eight groups of sixteen bits. -/
  | long (groups : List Nat)
deriving DecidableEq, Repr

namespace Address

/-! ## Writing -/

/-- Four octets with full stops between them. -/
def renderShort (a b c d : Nat) : String :=
  ".".intercalate ([a, b, c, d].map Text.decimal)

/-- Groups with colons between them. -/
def renderGroups (groups : List Nat) : String := ":".intercalate (groups.map Text.hex)

/-- The length of the run of zeros in front of a list. -/
def zeroRun : List Nat → Nat
  | 0 :: rest => zeroRun rest + 1
  | _ => 0

/-- The position and length of the longest run of zeros, the first of several. -/
def longestZeros (position : Nat) : List Nat → Nat × Nat
  | [] => (position, 0)
  | group :: rest =>
    let here := zeroRun (group :: rest)
    let later := longestZeros (position + 1) rest
    if later.2 ≤ here then (position, here) else later

/-- Eight groups, with two colons in the place of the longest run of zeros. -/
def renderLong (groups : List Nat) : String :=
  let (position, length) := longestZeros 0 groups
  if 1 < length then
    renderGroups (groups.take position) ++ "::" ++ renderGroups (groups.drop (position + length))
  else renderGroups groups

/-- The text of an address. Four octets within eight groups keep their full stops. -/
def render : Address → String
  | .short a b c d => renderShort a b c d
  | .long [0, 0, 0, 0, 0, 0xffff, high, low] =>
    "::ffff:" ++ renderShort (high / 256) (high % 256) (low / 256) (low % 256)
  | .long groups => renderLong groups

/-! ## Reading -/

/-- The digits in front, by their values in a base of at most sixteen, and what follows them. -/
def takeDigits (base : Nat) : List Char → List Nat × List Char
  | [] => ([], [])
  | c :: rest =>
    match (Text.hexOf? c).filter (·.val < base) with
    | some d => let (ds, tail) := takeDigits base rest; (d.val :: ds, tail)
    | none => ([], c :: rest)

/-- The number of digits in a base, below a bound and of at most `width` digits. -/
def number? (base bound : Nat) (width : Option Nat) (leadingZeros : Bool) (cs : List Char) :
    Option (Nat × List Char) :=
  let (ds, rest) := takeDigits base cs
  let n := ds.foldl (fun n d => base * n + d) 0
  -- A number that is too long is refused, not cut.
  if ds = [] ∨ width.any (· < ds.length) ∨ bound ≤ n then none
  else if !leadingZeros ∧ ds.head? = some 0 ∧ 1 < ds.length then none
  else some (n, rest)

/-- A character that has to stand in front, and what follows it. -/
def skip? (c : Char) : List Char → Option (List Char)
  | d :: rest => if d = c then some rest else none
  | [] => none

/-- One of the four octets. -/
def octet? (cs : List Char) : Option (Nat × List Char) := number? 10 256 (some 3) false cs

/-- Four octets with full stops between them. -/
def short? (cs : List Char) : Option ((Nat × Nat × Nat × Nat) × List Char) := do
  let (a, cs) ← octet? cs
  let (b, cs) ← octet? (← skip? '.' cs)
  let (c, cs) ← octet? (← skip? '.' cs)
  let (d, cs) ← octet? (← skip? '.' cs)
  return ((a, b, c, d), cs)

/-- Groups with colons between them, `left` at most, and whether the last two were written as four
octets. -/
def groups (first : Bool) : (left : Nat) → List Char → List Nat × Bool × List Char
  | 0, cs => ([], false, cs)
  | left + 1, cs =>
    match if first then some cs else skip? ':' cs with
    | none => ([], false, cs)
    | some body =>
      match if left = 0 then none else short? body with
      | some ((a, b, c, d), rest) => ([256 * a + b, 256 * c + d], true, rest)
      | none =>
        match number? 16 65536 (some 4) true body with
        | none => ([], false, cs)
        | some (group, rest) =>
          let (more, dotted, rest) := groups false left rest
          (group :: more, dotted, rest)

/-- Eight groups, or fewer with two colons for the missing ones. -/
def long? (cs : List Char) : Option (List Nat × List Char) := do
  let (front, dotted, rest) := groups true 8 cs
  if front.length = 8 then return (front, rest)
  -- Four octets stand at the end only, so nothing may be left out behind them.
  guard (!dotted)
  let rest ← skip? ':' (← skip? ':' rest)
  let (back, _, rest) := groups true (7 - front.length) rest
  return (front ++ List.replicate (8 - front.length - back.length) 0 ++ back, rest)

/-- The number of an interface behind a percent sign, or nothing. -/
def skipScope (cs : List Char) : List Char :=
  match (skip? '%' cs).bind (number? 10 UInt32.size none true) with
  | some (_, rest) => rest
  | none => cs

/-- A colon and a port, to the end of the text. -/
def atPort? (cs : List Char) : Option Unit := do
  let (_, rest) ← number? 10 65536 none true (← skip? ':' cs)
  guard (rest = [])

/-- Eight groups in brackets with a port. -/
def ofLongPeer? (cs : List Char) : Option Address := do
  let (groups, rest) ← long? (← skip? '[' cs)
  atPort? (← skip? ']' (skipScope rest))
  return .long groups

/-- Four octets with a port. -/
def ofShortPeer? (cs : List Char) : Option Address := do
  let ((a, b, c, d), rest) ← short? cs
  atPort? rest
  return .short a b c d

/-- The address of a text with a port. -/
def ofPeer? (text : String) : Option Address :=
  match ofShortPeer? text.toList with
  | some address => some address
  | none => ofLongPeer? text.toList

end Address

end FieldTelemetry.Net
