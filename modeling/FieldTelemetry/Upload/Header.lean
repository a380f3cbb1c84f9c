import FieldTelemetry.Number.Reading
import FieldTelemetry.Text.Blank

/-!
# Header fields

The header of an upload is a list of fields. Names are the same in any case, and of several fields
of one name the first counts.

## Main definitions

* `Header`: the fields of an upload
* `Header.value?`: the value of a field
* `Header.real?`, `Header.signed?`: the number in a field
-/

namespace FieldTelemetry.Upload

/-- The fields of an upload. -/
abbrev Header := List (String × String)

namespace Header

/-- A character that a value may have: a tabulator, or one in ASCII that has a width. -/
def isPlain (c : Char) : Bool := c = '\t' || (' ' ≤ c && c ≤ '~')

/-- A name in lower case. -/
def lower (name : String) : String := String.ofList (name.toList.map Char.toLower)

/-- The value of a field, without the blanks around it, if there is anything else. -/
def value? (header : Header) (name : String) : Option String := do
  let (_, value) ← header.find? fun (n, _) => lower n = lower name
  guard (value.toList.all isPlain)
  let value := Text.trim value
  guard (!value.isEmpty)
  return value

/-- The number in a field. -/
def real? (header : Header) (name : String) : Option Binary32 :=
  (header.value? name).bind Binary32.ofText?

/-- The whole number in a field, if it fits in thirty-two bits. -/
def signed? (header : Header) (name : String) : Option Int32 := do
  let n ← Text.signed? (← header.value? name)
  guard (Int32.minValue.toInt ≤ n ∧ n ≤ Int32.maxValue.toInt)
  return .ofInt n

end Header

end FieldTelemetry.Upload
