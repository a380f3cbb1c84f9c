import FieldTelemetry.Text.Digits

/-!
# Quoted texts in messages

A text that appears inside a message is put between double quotes, with the characters that would
not show as themselves written as escapes.

## Main definitions

* `quoted`: the quoted form of a text
-/

namespace FieldTelemetry.Text

/-- A control character by its number in braces. -/
def escapeByNumber (c : Char) : List Char :=
  ['\\', 'u', '\x7b'] ++ (hex c.toNat).toList ++ ['\x7d']

/-- One character of a quoted text. Quotes and backslashes are escaped by a backslash, the common
control characters have letters, and the other control characters are written by number. -/
def quotedChar (c : Char) : List Char :=
  if c = '"' then ['\\', '"']
  else if c = '\\' then ['\\', '\\']
  else if c = '\x00' then ['\\', '0']
  else if c = '\t' then ['\\', 't']
  else if c = '\n' then ['\\', 'n']
  else if c = '\r' then ['\\', 'r']
  else if c.toNat < 0x20 ∨ (0x7f ≤ c.toNat ∧ c.toNat < 0xa0) then escapeByNumber c
  else [c]

/-- A text between double quotes, as messages show it. -/
def quoted (text : String) : String :=
  String.ofList (['"'] ++ text.toList.flatMap quotedChar ++ ['"'])

end FieldTelemetry.Text
