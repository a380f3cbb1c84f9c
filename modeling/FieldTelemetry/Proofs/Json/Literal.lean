import FieldTelemetry.Json.Render
import FieldTelemetry.Proofs.Json.Numeral

/-!
# Reading string literals back

The automaton reads a string literal as the pieces of the text from which it was written. Characters
that are not escaped are read as their octets, and the others as code units.

## Main definitions

* `Denotes`: the pieces of a string literal denote a text

## Main results

* `Lexer.after?_literal`: a string literal is one token, with the text that was written
-/

namespace FieldTelemetry.Json

open Text

/-- The pieces of a string literal, newest first, denote the characters of a text. -/
def Denotes (pieces : List Piece) (cs : List Char) : Prop :=
  ∀ tail, pieceOctets? none pieces tail = some (cs.flatMap String.utf8EncodeChar ++ tail)

theorem denotes_nil : Denotes [] [] := fun _ => rfl

/-- Pieces denote the text of their characters. -/
theorem Denotes.pieceText? {pieces : List Piece} {text : String}
    (h : Denotes pieces text.toList) : pieceText? pieces = some text := by
  rw [Json.pieceText?, h []]
  simp only [List.append_nil, Option.bind_eq_bind, Option.bind_some]
  rw [← utf8_eq_flatMap]
  exact ofUtf8?_utf8 text

/-! ## Pieces of characters -/

/-- An escaped code unit that is no half of a pair denotes its character. -/
theorem Denotes.unit {pieces : List Piece} {cs : List Char} (h : Denotes pieces cs) {u : Nat}
    (hu : u < 0xd800) : Denotes (.unit u :: pieces) (cs ++ [Char.ofNat u]) := by
  intro tail
  -- Below the halves of pairs a code unit is a character.
  have htrailing : isTrailing u = false := by simp [isTrailing]; omega
  have hleading : isLeading u = false := by simp [isLeading]; omega
  simp [pieceOctets?, htrailing, hleading, h _]

theorem pieceOctets?_octets (pieces : List Piece) (bs tail : Octets) :
    pieceOctets? none ((bs.map Piece.octet).reverse ++ pieces) tail
      = pieceOctets? none pieces (bs ++ tail) := by
  -- The pieces are turned around, so the induction goes on with the last octet in front.
  induction bs generalizing pieces tail with
  | nil => rfl
  | cons b bs ih =>
    rw [List.map_cons, List.reverse_cons, List.append_assoc, ih]
    rfl

/-- The octets of a character denote it. -/
theorem Denotes.octets {pieces : List Piece} {cs : List Char} (h : Denotes pieces cs) (c : Char) :
    Denotes (((String.utf8EncodeChar c).map Piece.octet).reverse ++ pieces) (cs ++ [c]) := by
  intro tail
  rw [pieceOctets?_octets, h]
  simp

/-! ## Characters of literals -/

section Characters

variable (tokens : List Token) (cs : List Char)

/-- An escape by a letter is read as its code unit. -/
theorem Lexer.after?_letter {c : Char} {b : UInt8} (hc : String.utf8EncodeChar c = [b])
    (hb : b ≠ 0x75) {unit : Nat} (hunit : letterEscape? b = some unit) (pieces : List Piece) :
    Lexer.after? ⟨.text pieces, tokens⟩ ('\\' :: c :: cs)
      = Lexer.after? ⟨.text (.unit unit :: pieces), tokens⟩ cs := by
  have hslash : Lexer.step ⟨.text pieces, tokens⟩ 0x5c = some ⟨.escape pieces, tokens⟩ := rfl
  rw [after?_cons (b := 0x5c) rfl, hslash, Option.bind_some, after?_cons hc]
  simp [Lexer.step, hb, hunit]

/-- The octet of a hexadecimal digit. -/
def hexOctet (d : Fin 16) : UInt8 := UInt8.ofNat (hexChar d).toNat

theorem utf8EncodeChar_hexChar (d : Fin 16) :
    String.utf8EncodeChar (hexChar d) = [hexOctet d] := by
  revert d; decide

theorem hexOf?_hexOctet (d : Fin 16) : hexOf? (Char.ofNat (hexOctet d).toNat) = some d := by
  revert d; decide

theorem Lexer.after?_hex (pieces : List Piece) (unit missing : Nat) (d : Fin 16) :
    Lexer.after? ⟨.hex pieces unit (missing + 2), tokens⟩ (hexChar d :: cs)
      = Lexer.after? ⟨.hex pieces (16 * unit + d.val) (missing + 1), tokens⟩ cs := by
  rw [after?_cons (utf8EncodeChar_hexChar d)]
  simp [Lexer.step, hexOf?_hexOctet]

theorem Lexer.after?_lastHex (pieces : List Piece) (unit : Nat) (d : Fin 16) :
    Lexer.after? ⟨.hex pieces unit 1, tokens⟩ (hexChar d :: cs)
      = Lexer.after? ⟨.text (.unit (16 * unit + d.val) :: pieces), tokens⟩ cs := by
  rw [after?_cons (utf8EncodeChar_hexChar d)]
  simp [Lexer.step, hexOf?_hexOctet]

/-- An escape by four hexadecimal digits is read as the code unit that they denote. -/
theorem Lexer.after?_number {n : Nat} (hn : n < 0x10000) (pieces : List Piece) :
    Lexer.after? ⟨.text pieces, tokens⟩ ('\\' :: 'u' :: lastHexDigits 4 n [] ++ cs)
      = Lexer.after? ⟨.text (.unit n :: pieces), tokens⟩ cs := by
  have hslash : Lexer.step ⟨.text pieces, tokens⟩ 0x5c = some ⟨.escape pieces, tokens⟩ := rfl
  have hu : Lexer.step ⟨.escape pieces, tokens⟩ 0x75 = some ⟨.hex pieces 0 4, tokens⟩ := rfl
  simp only [lastHexDigits, List.cons_append, List.nil_append]
  rw [after?_cons (b := 0x5c) rfl, hslash, Option.bind_some, after?_cons (b := 0x75) rfl, hu,
    Option.bind_some, after?_hex _ _ _ _ 2, after?_hex _ _ _ _ 1, after?_hex _ _ _ _ 0,
    after?_lastHex]
  -- The four digits make up the number again.
  congr 5
  simp only [Fin.ofNat]
  omega

/-- No octet of a character that need not be escaped ends a literal, begins an escape or is a
control character. -/
theorem plain_octets {c : Char} (hquote : c ≠ '"') (hslash : c ≠ '\\')
    (hcontrol : ¬ c.toNat < 0x20) :
    ∀ b ∈ String.utf8EncodeChar c, b ≠ 0x22 ∧ b ≠ 0x5c ∧ ¬ b < 0x20 := by
  intro b hb
  have hne : ∀ d : Char, c ≠ d → c.toNat ≠ d.toNat := fun d hcd h => hcd (Char.toNat_inj.mp h)
  have h22 := hne _ hquote
  have h5c := hne _ hslash
  have hlt : b < 0x20 ↔ b.toNat < 0x20 := UInt8.lt_iff_toNat_lt
  have heq : ∀ d : UInt8, b = d → b.toNat = d.toNat := fun d h => h ▸ rfl
  -- The octet is the character itself, or it is one of several and not a character of its own.
  rcases toNat_of_mem_utf8EncodeChar hb with h | h
  all_goals
    refine ⟨fun e => ?_, fun e => ?_, fun e => ?_⟩
    · have := heq _ e; simp at this h22; omega
    · have := heq _ e; simp at this h5c; omega
    · rw [hlt] at e; omega

/-- Such octets are read one by one. -/
theorem Lexer.foldlM_plain {bs : Octets} (h : ∀ b ∈ bs, b ≠ 0x22 ∧ b ≠ 0x5c ∧ ¬ b < 0x20)
    (pieces : List Piece) :
    bs.foldlM Lexer.step ⟨.text pieces, tokens⟩
      = some ⟨.text ((bs.map Piece.octet).reverse ++ pieces), tokens⟩ := by
  induction bs generalizing pieces with
  | nil => rfl
  | cons b bs ih =>
    obtain ⟨h1, h2, h3⟩ := h b List.mem_cons_self
    have hstep : Lexer.step ⟨.text pieces, tokens⟩ b
        = some ⟨.text (.octet b :: pieces), tokens⟩ := by
      simp [Lexer.step, h1, h2, h3]
    rw [List.foldlM_cons, hstep]
    simp only [Option.bind_eq_bind, Option.bind_some]
    rw [ih (fun b hb => h b (List.mem_cons_of_mem _ hb))]
    simp

/-- A character that is not escaped is read as its octets. -/
theorem Lexer.after?_plain {c : Char} (hquote : c ≠ '"') (hslash : c ≠ '\\')
    (hcontrol : ¬ c.toNat < 0x20) (pieces : List Piece) :
    Lexer.after? ⟨.text pieces, tokens⟩ (c :: cs)
      = Lexer.after? ⟨.text (((String.utf8EncodeChar c).map Piece.octet).reverse ++ pieces),
          tokens⟩ cs := by
  rw [show c :: cs = [c] ++ cs from rfl, after?_append]
  simp only [List.flatMap_cons, List.flatMap_nil, List.append_nil]
  rw [foldlM_plain _ (plain_octets hquote hslash hcontrol), Option.bind_some]

/-- A character is read as pieces that denote it, whether it is escaped or not. -/
theorem Lexer.after?_escapedChar (c : Char) {pieces : List Piece} {done : List Char}
    (h : Denotes pieces done) :
    ∃ pieces', Denotes pieces' (done ++ [c]) ∧
      Lexer.after? ⟨.text pieces, tokens⟩ (escapedChar c ++ cs)
        = Lexer.after? ⟨.text pieces', tokens⟩ cs := by
  unfold escapedChar
  -- One case for each escape: seven letters, the other control characters, and characters that are
  -- written as they are.
  split_ifs with hquote hslash hback hfeed hline hreturn htab hcontrol
  · exact ⟨_, hquote ▸ h.unit (u := 0x22) (by decide),
      after?_letter tokens cs (b := 0x22) rfl (by decide) rfl pieces⟩
  · exact ⟨_, hslash ▸ h.unit (u := 0x5c) (by decide),
      after?_letter tokens cs (b := 0x5c) rfl (by decide) rfl pieces⟩
  · exact ⟨_, hback ▸ h.unit (u := 0x08) (by decide),
      after?_letter tokens cs (b := 0x62) rfl (by decide) rfl pieces⟩
  · exact ⟨_, hfeed ▸ h.unit (u := 0x0c) (by decide),
      after?_letter tokens cs (b := 0x66) rfl (by decide) rfl pieces⟩
  · exact ⟨_, hline ▸ h.unit (u := 0x0a) (by decide),
      after?_letter tokens cs (b := 0x6e) rfl (by decide) rfl pieces⟩
  · exact ⟨_, hreturn ▸ h.unit (u := 0x0d) (by decide),
      after?_letter tokens cs (b := 0x72) rfl (by decide) rfl pieces⟩
  · exact ⟨_, htab ▸ h.unit (u := 0x09) (by decide),
      after?_letter tokens cs (b := 0x74) rfl (by decide) rfl pieces⟩
  · refine ⟨_, ?_, after?_number tokens cs (by omega) pieces⟩
    have := h.unit (u := c.toNat) (by omega)
    rwa [Char.ofNat_toNat] at this
  · exact ⟨_, h.octets c, after?_plain tokens cs hquote hslash hcontrol pieces⟩

/-- The characters of a text are read as pieces that denote it. -/
theorem Lexer.after?_escaped (text : List Char) {pieces : List Piece} {done : List Char}
    (h : Denotes pieces done) :
    ∃ pieces', Denotes pieces' (done ++ text) ∧
      Lexer.after? ⟨.text pieces, tokens⟩ (text.flatMap escapedChar ++ cs)
        = Lexer.after? ⟨.text pieces', tokens⟩ cs := by
  induction text generalizing pieces done with
  | nil => exact ⟨pieces, by simpa using h, rfl⟩
  | cons c text ih =>
    obtain ⟨pieces₁, h₁, e₁⟩ := after?_escapedChar tokens (text.flatMap escapedChar ++ cs) c h
    obtain ⟨pieces₂, h₂, e₂⟩ := ih h₁
    refine ⟨pieces₂, by simpa using h₂, ?_⟩
    rw [List.flatMap_cons, List.append_assoc, e₁, e₂]

end Characters

/-! ## Whole literals -/

theorem Lexer.after?_quote (tokens : List Token) (cs : List Char) :
    Lexer.after? ⟨.between, tokens⟩ ('"' :: cs) = Lexer.after? ⟨.text [], tokens⟩ cs :=
  after?_cons (b := 0x22) rfl _ cs

theorem Lexer.after?_unquote (pieces : List Piece) (tokens : List Token) (cs : List Char) :
    Lexer.after? ⟨.text pieces, tokens⟩ ('"' :: cs)
      = Lexer.after? ⟨.between, .string (pieceText? pieces) :: tokens⟩ cs :=
  after?_cons (b := 0x22) rfl _ cs

/-- A string literal is one token, with the text that was written. -/
theorem Lexer.after?_literal (text : Option String) (tokens : List Token) (cs : List Char) :
    Lexer.after? ⟨.between, tokens⟩ (literal text ++ cs)
      = Lexer.after? ⟨.between, .string text :: tokens⟩ cs := by
  cases text with
  | some text =>
    obtain ⟨pieces, hpieces, hrun⟩ := after?_escaped tokens ('"' :: cs) text.toList denotes_nil
    have htext : literal (some text) = '"' :: text.toList.flatMap escapedChar ++ ['"'] := rfl
    rw [htext, List.cons_append, List.cons_append, List.append_assoc, List.singleton_append,
      after?_quote, hrun, after?_unquote, hpieces.pieceText?]
  | none =>
    -- A half of a pair denotes no text.
    have hnumber := after?_number tokens ('"' :: cs) (n := 0xd800) (by decide) []
    have hnone : pieceText? [.unit 0xd800] = none := by
      simp [pieceText?, pieceOctets?, isTrailing, isLeading]
    have htext : literal none = '"' :: ('\\' :: 'u' :: lastHexDigits 4 0xd800 [] ++ ['"']) := by
      decide
    rw [htext, List.cons_append, List.append_assoc, List.singleton_append, after?_quote, hnumber,
      after?_unquote, hnone]

end FieldTelemetry.Json
