/-!
# White space

The characters with the Unicode property White_Space, and trimming by it.

## Main definitions

* `isBlank`: the property itself
* `trimStart`, `trim`: a text without the blanks at its start, or at both ends
-/

namespace FieldTelemetry.Text

/-- The twenty-five characters of the Unicode property White_Space. -/
def isBlank (c : Char) : Bool :=
  let n := c.toNat
  (0x09 ≤ n && n ≤ 0x0d) || n == 0x20 || n == 0x85 || n == 0xa0 || n == 0x1680
    || (0x2000 ≤ n && n ≤ 0x200a) || n == 0x2028 || n == 0x2029 || n == 0x202f || n == 0x205f
    || n == 0x3000

/-- Characters without the blanks in front. -/
def trimStart (cs : List Char) : List Char := cs.dropWhile isBlank

/-- A text without the blanks at both ends. -/
def trim (text : String) : String :=
  String.ofList (trimStart (trimStart text.toList).reverse).reverse

end FieldTelemetry.Text
