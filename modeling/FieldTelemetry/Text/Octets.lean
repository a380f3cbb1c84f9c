import FieldTelemetry.Text.Digits

/-!
# Octets of texts

UTF-8 octets of a text and the text of UTF-8 octets, and octets written as pairs of hexadecimal
digits.

## Main definitions

* `Octets`: a sequence of octets
* `utf8`, `ofUtf8?`: a text as its UTF-8 octets, and back
* `Octets.toHex`, `Octets.ofHex?`: octets as hexadecimal text, and back
-/

namespace FieldTelemetry

/-- A sequence of octets: a payload, an encoded message or the contents of a file. -/
abbrev Octets := List UInt8

namespace Text

/-- The UTF-8 octets of a text. -/
def utf8 (text : String) : Octets := text.toUTF8.data.toList

/-- The text that octets encode in UTF-8, if they are well formed. -/
def ofUtf8? (octets : Octets) : Option String := String.fromUTF8? ⟨octets.toArray⟩

theorem ofUtf8?_utf8 (text : String) : ofUtf8? (utf8 text) = some text := by
  have h : (⟨text.toUTF8.data.toList.toArray⟩ : ByteArray) = text.toUTF8 := by simp
  simp only [ofUtf8?, utf8, h, String.fromUTF8?]
  simp [String.fromUTF8, text.isValidUTF8]

end Text

namespace Octets

/-- Two lower-case hexadecimal digits for each octet. -/
def toHex (octets : Octets) : String :=
  String.ofList (octets.foldr (fun b tail => Text.lastHexDigits 2 b.toNat tail) [])

/-- The octets written as pairs of hexadecimal digits, behind the octets `found`, newest first. -/
def ofHexChars? (found : Octets) : List Char → Option Octets
  | [] => some found.reverse
  | [_] => none
  | high :: low :: rest => do
    let h ← Text.hexOf? high
    let l ← Text.hexOf? low
    ofHexChars? (UInt8.ofNat (16 * h.val + l.val) :: found) rest

/-- The octets written as pairs of hexadecimal digits. -/
def ofHex? (text : String) : Option Octets := ofHexChars? [] text.toList

end Octets

end FieldTelemetry
