import FieldTelemetry.Text.Octets

/-!
# Octets of characters

The octets of a text are those of its characters. A character of ASCII is its own octet, and all
octets of another are beyond ASCII.

## Main results

* `utf8_ofList`, `utf8_eq_flatMap`: a text is encoded character by character
* `utf8_inj`: no two texts have the same octets
* `toNat_of_mem_utf8EncodeChar`: the octets of a character
-/

namespace FieldTelemetry.Text

/-- The octets of the text of some characters. -/
theorem utf8_ofList (cs : List Char) :
    utf8 (String.ofList cs) = cs.flatMap String.utf8EncodeChar := by
  simp [utf8, List.utf8Encode]

/-- The octets of a text are those of its characters. -/
theorem utf8_eq_flatMap (text : String) :
    utf8 text = text.toList.flatMap String.utf8EncodeChar := by
  rw [← utf8_ofList, String.ofList_toList]

/-- No two texts have the same octets. -/
theorem utf8_inj {text text' : String} : utf8 text = utf8 text' ↔ text = text' := by
  constructor
  · intro h
    have hread := congrArg ofUtf8? h
    rwa [ofUtf8?_utf8, ofUtf8?_utf8, Option.some.injEq] at hread
  · rintro rfl
    rfl

theorem utf8_append (text text' : String) : utf8 (text ++ text') = utf8 text ++ utf8 text' := by
  rw [utf8_eq_flatMap, utf8_eq_flatMap, utf8_eq_flatMap, String.toList_append, List.flatMap_append]

/-- The octets of a character are the character itself or no characters of ASCII. -/
theorem toNat_of_mem_utf8EncodeChar {c : Char} {b : UInt8} (h : b ∈ String.utf8EncodeChar c) :
    b.toNat = c.toNat ∨ 0x80 ≤ b.toNat := by
  have hc : c.toNat = c.val.toNat := rfl
  unfold String.utf8EncodeChar at h
  dsimp only at h
  split at h
  · simp only [List.mem_singleton] at h
    subst h
    left
    simp
    omega
  · right
    -- All octets but the first have one of 64 values from 0x80 on, and the first is larger.
    split at h
    · simp only [List.mem_cons, List.not_mem_nil, or_false] at h
      rcases h with rfl | rfl <;> simp <;> omega
    · split at h
      · simp only [List.mem_cons, List.not_mem_nil, or_false] at h
        rcases h with rfl | rfl | rfl <;> simp <;> omega
      · simp only [List.mem_cons, List.not_mem_nil, or_false] at h
        rcases h with rfl | rfl | rfl | rfl <;> simp <;> omega

end FieldTelemetry.Text
