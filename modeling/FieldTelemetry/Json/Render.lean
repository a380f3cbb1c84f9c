import FieldTelemetry.Json.Value

/-!
# JSON texts

The texts of a JSON value: one without any white space, and one that puts every item and member on
a line of its own, indented by two spaces for each array or object around it.

## Main definitions

* `Json.compact`: the text without white space
* `Json.pretty`: the text in lines
-/

namespace FieldTelemetry.Json

open Text

/-- One character of a string literal. Quotes, backslashes and control characters are escaped. -/
def escapedChar (c : Char) : List Char :=
  if c = '"' then ['\\', '"']
  else if c = '\\' then ['\\', '\\']
  else if c = '\x08' then ['\\', 'b']
  else if c = '\x0c' then ['\\', 'f']
  else if c = '\n' then ['\\', 'n']
  else if c = '\r' then ['\\', 'r']
  else if c = '\t' then ['\\', 't']
  else if c.toNat < 0x20 then '\\' :: 'u' :: lastHexDigits 4 c.toNat []
  else [c]

/-- A string literal. A missing text is written as a lone surrogate, which denotes none. -/
def literal : Option String → List Char
  | some text => '"' :: text.toList.flatMap escapedChar ++ ['"']
  | none => "\"\\ud800\"".toList

mutual

/-- The characters of a value without white space, in front of `tail`. -/
def compactChars : Json → (tail : List Char) → List Char
  | .null, tail => "null".toList ++ tail
  | .bool b, tail => (if b then "true" else "false").toList ++ tail
  | .number numeral, tail => numeral.render ++ tail
  | .string text, tail => literal text ++ tail
  | .array items, tail => '[' :: compactItems false items (']' :: tail)
  | .object members, tail => '\x7b' :: compactMembers false members ('\x7d' :: tail)

/-- The items of an array. All but a first one have a comma in front. -/
def compactItems (comma : Bool) : List Json → (tail : List Char) → List Char
  | [], tail => tail
  | item :: items, tail =>
    (if comma then [','] else []) ++ compactChars item (compactItems true items tail)

/-- The members of an object. All but a first one have a comma in front. -/
def compactMembers (comma : Bool) :
    List (Option String × Json) → (tail : List Char) → List Char
  | [], tail => tail
  | (key, value) :: members, tail =>
    (if comma then [','] else []) ++ literal key
      ++ ':' :: compactChars value (compactMembers true members tail)

end

/-- The text of a value without white space. -/
def compact (value : Json) : String := String.ofList (compactChars value [])

/-- A line break and the indentation of the line after it. -/
def lineBreak (depth : Nat) : List Char := '\n' :: List.replicate (2 * depth) ' '

mutual

/-- The characters of a value in lines, inside `depth` arrays and objects, in front of `tail`. -/
def prettyChars (depth : Nat) : Json → (tail : List Char) → List Char
  | .null, tail => "null".toList ++ tail
  | .bool b, tail => (if b then "true" else "false").toList ++ tail
  | .number numeral, tail => numeral.render ++ tail
  | .string text, tail => literal text ++ tail
  | .array [], tail => '[' :: ']' :: tail
  | .array (item :: items), tail =>
    '[' :: prettyItems (depth + 1) false (item :: items) (lineBreak depth ++ ']' :: tail)
  | .object [], tail => '\x7b' :: '\x7d' :: tail
  | .object (member :: members), tail =>
    '\x7b' :: prettyMembers (depth + 1) false (member :: members)
      (lineBreak depth ++ '\x7d' :: tail)

/-- The items of an array, each on its own line. All but a first one have a comma in front. -/
def prettyItems (depth : Nat) (comma : Bool) : List Json → (tail : List Char) → List Char
  | [], tail => tail
  | item :: items, tail =>
    (if comma then [','] else []) ++ lineBreak depth
      ++ prettyChars depth item (prettyItems depth true items tail)

/-- The members of an object, each on its own line. All but a first one have a comma in front. -/
def prettyMembers (depth : Nat) (comma : Bool) :
    List (Option String × Json) → (tail : List Char) → List Char
  | [], tail => tail
  | (key, value) :: members, tail =>
    (if comma then [','] else []) ++ lineBreak depth ++ literal key
      ++ ':' :: ' ' :: prettyChars depth value (prettyMembers depth true members tail)

end

/-- The text of a value in lines. -/
def pretty (value : Json) : String := String.ofList (prettyChars 0 value [])

end FieldTelemetry.Json
