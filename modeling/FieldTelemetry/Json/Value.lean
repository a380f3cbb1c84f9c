import FieldTelemetry.Json.Number

/-!
# JSON values

A JSON value as its text lays it out: numerals keep their digits and objects keep the order and the
repetitions of their keys.

## Main definitions

* `Json`: a JSON value
* `Json.plain`: the values that can be taken out of their text as they stand
-/

namespace FieldTelemetry

open Json (Numeral)

/-- A JSON value. A string literal that denotes no Unicode text, because of an unpaired surrogate
or octets that are not UTF-8, has no text. -/
inductive Json
  /-- The literal `null`. -/
  | null
  /-- The literals `true` and `false`. -/
  | bool (value : Bool)
  /-- A numeral. -/
  | number (numeral : Numeral)
  /-- A string literal. -/
  | string (text : Option String)
  /-- An array. -/
  | array (items : List Json)
  /-- An object, its members in their order. -/
  | object (members : List (Option String × Json))

namespace Json

/-- The value of a text. -/
def ofString (text : String) : Json := .string (some text)

/-- The value of a natural number. -/
def ofNat (n : Nat) : Json := .number (.ofNat n)

/-- The value of a whole number. -/
def ofInt (n : Int) : Json := .number (.ofInt n)

/-- The value of a number in the single format. Infinities and NaNs have no numeral. -/
def ofSingle (x : Binary32) : Json :=
  match Numeral.ofSingle? x with
  | some numeral => .number numeral
  | none => .null

/-- An object with the given members. -/
def ofMembers (members : List (String × Json)) : Json :=
  .object (members.map fun (key, value) => (some key, value))

mutual

/-- Whether every string has a text, every numeral is within the double format, and arrays and
objects nest at most `depth` deep. -/
def plain (depth : Nat) : Json → Bool
  | .null => true
  | .bool _ => true
  | .number numeral => numeral.integer?.isSome || numeral.double?.isSome
  | .string text => text.isSome
  | .array items =>
    match depth with
    | 0 => false
    | inner + 1 => plainItems inner items
  | .object members =>
    match depth with
    | 0 => false
    | inner + 1 => plainMembers inner members

/-- `plain` for all items. -/
def plainItems (depth : Nat) : List Json → Bool
  | [] => true
  | item :: items => plain depth item && plainItems depth items

/-- `plain` for all members, keys included. -/
def plainMembers (depth : Nat) : List (Option String × Json) → Bool
  | [] => true
  | (key, value) :: members => key.isSome && plain depth value && plainMembers depth members

end

end Json

end FieldTelemetry
