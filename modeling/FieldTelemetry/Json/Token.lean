import FieldTelemetry.Json.Value
import FieldTelemetry.Text.Octets

/-!
# JSON tokens

The tokens of a JSON text, found by an automaton that reads one octet at a time.

## Main definitions

* `Token`: a token
* `Literal`: a string literal as written, and the text it denotes
* `Lexer.step`, `Lexer.finish?`: the automaton
* `tokens?`: the tokens of a text
-/

namespace FieldTelemetry.Json

open Text

/-- A token of a JSON text. -/
inductive Token
  /-- An opening square bracket. -/
  | openArray
  /-- A closing square bracket. -/
  | closeArray
  /-- An opening brace. -/
  | openObject
  /-- A closing brace. -/
  | closeObject
  /-- A comma. -/
  | comma
  /-- A colon. -/
  | colon
  /-- The literal `null`. -/
  | null
  /-- The literals `true` and `false`. -/
  | bool (value : Bool)
  /-- A numeral. -/
  | number (numeral : Numeral)
  /-- A string literal, with the text it denotes. -/
  | string (text : Option String)
deriving DecidableEq, Repr

/-! ## String literals -/

/-- A piece of a string literal: an octet that stands for itself, or a code unit of sixteen bits
written as an escape. -/
inductive Piece
  /-- An octet of the text. -/
  | octet (octet : UInt8)
  /-- An escaped code unit. -/
  | unit (unit : Nat)
deriving DecidableEq, Repr

/-- The code units that begin a pair. -/
def isLeading (unit : Nat) : Bool := 0xd800 ≤ unit && unit < 0xdc00

/-- The code units that end a pair. -/
def isTrailing (unit : Nat) : Bool := 0xdc00 ≤ unit && unit < 0xe000

/-- The octets of the pieces of a string literal, newest first, in front of `tail`. A code unit that
begins or ends a pair has octets only with its partner; `trailing` is an end that waits for its
beginning. -/
def pieceOctets? : (trailing : Option Nat) → List Piece → (tail : Octets) → Option Octets
  | none, [], tail => some tail
  | none, .octet b :: pieces, tail => pieceOctets? none pieces (b :: tail)
  | none, .unit u :: pieces, tail =>
    if isTrailing u then pieceOctets? (some u) pieces tail
    else if isLeading u then none
    else pieceOctets? none pieces (String.utf8EncodeChar (.ofNat u) ++ tail)
  | some v, .unit u :: pieces, tail =>
    if isLeading u then
      pieceOctets? none pieces
        (String.utf8EncodeChar (.ofNat (0x10000 + (u - 0xd800) * 0x400 + (v - 0xdc00))) ++ tail)
    else none
  | some _, .octet _ :: _, _ => none
  | some _, [], _ => none

/-- The text that the pieces of a string literal, newest first, denote, if they denote one. -/
def pieceText? (pieces : List Piece) : Option String := do
  ofUtf8? (← pieceOctets? none pieces [])

/-- The code unit behind a letter after a backslash. -/
def letterEscape? (b : UInt8) : Option Nat :=
  match Char.ofNat b.toNat with
  | '"' => some 0x22
  | '\\' => some 0x5c
  | '/' => some 0x2f
  | 'b' => some 0x08
  | 'f' => some 0x0c
  | 'n' => some 0x0a
  | 'r' => some 0x0d
  | 't' => some 0x09
  | _ => none

/-! ## Numerals -/

/-- How far a numeral has been read. -/
inductive NumeralPart
  /-- A minus sign. -/
  | sign
  /-- A leading zero. -/
  | zero
  /-- Digits before the point. -/
  | whole
  /-- The point. -/
  | point
  /-- Digits after the point. -/
  | fraction
  /-- The mark of the exponent. -/
  | mark
  /-- The sign of the exponent. -/
  | markSign
  /-- Digits of the exponent. -/
  | exponent
deriving DecidableEq, Repr

/-- A numeral that is being read, its digits newest first. -/
structure OpenNumeral where
  /-- How far it has been read. -/
  part : NumeralPart
  /-- A minus sign stands in front. -/
  negative : Bool
  /-- Digits before the point. -/
  whole : List Digit := []
  /-- Digits after the point. -/
  fraction : List Digit := []
  /-- A minus sign stands in front of the exponent. -/
  exponentNegative : Bool := false
  /-- Digits of the exponent. -/
  exponent : List Digit := []
deriving DecidableEq, Repr

namespace OpenNumeral

/-- A numeral begun by an octet. -/
def start? (b : UInt8) : Option OpenNumeral :=
  if b = 0x2d then some { part := .sign, negative := true }
  else (digitOfOctet? b).map fun d =>
    { part := if d = 0 then .zero else .whole, negative := false, whole := [d] }

/-- A numeral continued by a digit. A leading zero has no digit after it. -/
def digit? (n : OpenNumeral) (d : Digit) : Option OpenNumeral :=
  match n.part with
  | .sign => some { n with part := if d = 0 then .zero else .whole, whole := [d] }
  | .zero => none
  | .whole => some { n with whole := d :: n.whole }
  | .point | .fraction => some { n with part := .fraction, fraction := d :: n.fraction }
  | .mark | .markSign | .exponent => some { n with part := .exponent, exponent := d :: n.exponent }

/-- A numeral continued by an octet that belongs to it. -/
def next? (n : OpenNumeral) (b : UInt8) : Option OpenNumeral :=
  match digitOfOctet? b with
  | some d => n.digit? d
  | none =>
    match n.part with
    | .zero | .whole =>
      if b = 0x2e then some { n with part := .point }
      else if b = 0x65 ∨ b = 0x45 then some { n with part := .mark }
      else none
    | .fraction => if b = 0x65 ∨ b = 0x45 then some { n with part := .mark } else none
    | .mark =>
      if b = 0x2b then some { n with part := .markSign }
      else if b = 0x2d then some { n with part := .markSign, exponentNegative := true }
      else none
    | .sign | .point | .markSign | .exponent => none

/-- The numeral, if it is complete. -/
def close? (n : OpenNumeral) : Option Numeral :=
  let numeral (exponent : Option Exponent) : Numeral :=
    ⟨n.negative, n.whole.reverse, n.fraction.reverse, exponent⟩
  match n.part with
  | .zero | .whole | .fraction => some (numeral none)
  | .exponent => some (numeral (some ⟨n.exponentNegative, n.exponent.reverse⟩))
  | .sign | .point | .mark | .markSign => none

end OpenNumeral

/-! ## The automaton -/

/-- What the automaton is in the middle of. -/
inductive Mode
  /-- Nothing: between two tokens. -/
  | between
  /-- A literal name, with the octets still to come. -/
  | name (rest : Octets) (token : Token)
  /-- A numeral. -/
  | numeral (numeral : OpenNumeral)
  /-- A string literal, its pieces newest first. -/
  | text (pieces : List Piece)
  /-- A string literal after a backslash. -/
  | escape (pieces : List Piece)
  /-- A string literal in an escape by number: the number so far and the digits still to come. -/
  | hex (pieces : List Piece) (unit : Nat) (missing : Nat)
deriving DecidableEq, Repr

/-- The automaton: what it is in the middle of, and the tokens so far, newest first. -/
structure Lexer where
  /-- What it is in the middle of. -/
  mode : Mode
  /-- The tokens so far, newest first. -/
  tokens : List Token
deriving DecidableEq, Repr

namespace Lexer

/-- The white space of JSON. -/
def isSpace (b : UInt8) : Bool := b == 0x20 || b == 0x0a || b == 0x0d || b == 0x09

/-- The token that a single octet makes up. -/
def punctuation? (b : UInt8) : Option Token :=
  match Char.ofNat b.toNat with
  | '[' => some .openArray
  | ']' => some .closeArray
  | '\x7b' => some .openObject
  | '\x7d' => some .closeObject
  | ',' => some .comma
  | ':' => some .colon
  | _ => none

/-- The token begun by an octet between two tokens. -/
def begin? (tokens : List Token) (b : UInt8) : Option Lexer :=
  if isSpace b then some ⟨.between, tokens⟩
  else
    match punctuation? b with
    | some token => some ⟨.between, token :: tokens⟩
    | none =>
      match Char.ofNat b.toNat with
      | '"' => some ⟨.text [], tokens⟩
      | 'n' => some ⟨.name (utf8 "ull") .null, tokens⟩
      | 't' => some ⟨.name (utf8 "rue") (.bool true), tokens⟩
      | 'f' => some ⟨.name (utf8 "alse") (.bool false), tokens⟩
      | _ => (OpenNumeral.start? b).map fun n => ⟨.numeral n, tokens⟩

/-- One octet further. Control characters stand for themselves in no string literal. -/
def step (lexer : Lexer) (b : UInt8) : Option Lexer :=
  let tokens := lexer.tokens
  match lexer.mode with
  | .between => begin? tokens b
  | .name [] _ => none
  | .name [last] token => if b = last then some ⟨.between, token :: tokens⟩ else none
  | .name (next :: rest) token => if b = next then some ⟨.name rest token, tokens⟩ else none
  | .numeral n =>
    match n.next? b with
    | some n => some ⟨.numeral n, tokens⟩
    | none => do
      let numeral ← n.close?
      begin? (.number numeral :: tokens) b
  | .text pieces =>
    if b = 0x22 then some ⟨.between, .string (pieceText? pieces) :: tokens⟩
    else if b = 0x5c then some ⟨.escape pieces, tokens⟩
    else if b < 0x20 then none
    else some ⟨.text (.octet b :: pieces), tokens⟩
  | .escape pieces =>
    if b = 0x75 then some ⟨.hex pieces 0 4, tokens⟩
    else (letterEscape? b).map fun unit => ⟨.text (.unit unit :: pieces), tokens⟩
  | .hex pieces unit missing => do
    let d ← hexOf? (Char.ofNat b.toNat)
    let unit := 16 * unit + d.val
    if missing ≤ 1 then some ⟨.text (.unit unit :: pieces), tokens⟩
    else some ⟨.hex pieces unit (missing - 1), tokens⟩

/-- The tokens, oldest first, if the text may end here. -/
def finish? (lexer : Lexer) : Option (List Token) :=
  match lexer.mode with
  | .between => some lexer.tokens.reverse
  | .numeral n => n.close?.map fun numeral => (.number numeral :: lexer.tokens).reverse
  | _ => none

end Lexer

/-- The tokens of a text, if it consists of tokens. -/
def tokens? (text : Octets) : Option (List Token) := do
  (← text.foldlM Lexer.step ⟨.between, []⟩).finish?

end FieldTelemetry.Json
