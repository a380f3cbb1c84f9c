import FieldTelemetry.Json.Tree
import FieldTelemetry.Proofs.Json.Literal

/-!
# Reading JSON texts back

Both texts of a JSON value consist of the same tokens, and the value is built from them again. So a
value is read back from either text, if its numerals are proper.

## Main definitions

* `Proper`: the values with proper numerals
* `pushed`: the tokens of a value, newest first
* `Built`: how far the value of some tokens has been built

## Main results

* `parse?_compact`, `parse?_pretty`: a value is read back from its texts
-/

namespace FieldTelemetry.Json

open Text

/-! ## Proper values -/

mutual

/-- All numerals of the value are proper. -/
def Proper : Json → Prop
  | .null | .bool _ | .string _ => True
  | .number numeral => numeral.Proper
  | .array items => ProperItems items
  | .object members => ProperMembers members

/-- `Proper` for all items. -/
def ProperItems : List Json → Prop
  | [] => True
  | item :: items => Proper item ∧ ProperItems items

/-- `Proper` for all members. -/
def ProperMembers : List (Option String × Json) → Prop
  | [] => True
  | (_, value) :: members => Proper value ∧ ProperMembers members

end

theorem proper_array {items : List Json} (h : ∀ item ∈ items, Proper item) :
    Proper (.array items) := by
  rw [Proper]
  induction items with
  | nil => trivial
  | cons item items ih => exact ⟨h item (by simp), ih fun i hi => h i (by simp [hi])⟩

/-! ## The tokens of values -/

mutual

/-- The tokens of a value, newest first, on top of those in front of it. -/
def pushed : Json → List Token → List Token
  | .null, tokens => .null :: tokens
  | .bool b, tokens => .bool b :: tokens
  | .number numeral, tokens => .number numeral :: tokens
  | .string text, tokens => .string text :: tokens
  | .array items, tokens => .closeArray :: pushedItems false items (.openArray :: tokens)
  | .object members, tokens => .closeObject :: pushedMembers false members (.openObject :: tokens)

/-- The tokens of the items of an array. All but a first one have a comma in front. -/
def pushedItems (comma : Bool) : List Json → List Token → List Token
  | [], tokens => tokens
  | item :: items, tokens =>
    pushedItems true items (pushed item (if comma then .comma :: tokens else tokens))

/-- The tokens of the members of an object. All but a first one have a comma in front. -/
def pushedMembers (comma : Bool) : List (Option String × Json) → List Token → List Token
  | [], tokens => tokens
  | (key, value) :: members, tokens =>
    pushedMembers true members
      (pushed value (.colon :: .string key :: if comma then .comma :: tokens else tokens))

end

section Lexing

theorem delimited_cons {c : Char} (cs : List Char)
    (h : c = ',' ∨ c = ']' ∨ c = '\x7d' ∨ c = '\n') : Delimited (c :: cs) := by
  simpa [Delimited] using h

/-- A character of punctuation is a token by itself. -/
theorem Lexer.after?_punctuation {c : Char} {b : UInt8} (hc : String.utf8EncodeChar c = [b])
    {token : Token} (hspace : isSpace b = false) (htoken : punctuation? b = some token)
    (tokens : List Token) (cs : List Char) :
    Lexer.after? ⟨.between, tokens⟩ (c :: cs) = Lexer.after? ⟨.between, token :: tokens⟩ cs := by
  rw [after?_cons hc]
  simp [Lexer.step, Lexer.begin?, hspace, htoken]

section

variable (tokens : List Token) (cs : List Char)

theorem Lexer.after?_openArray : Lexer.after? ⟨.between, tokens⟩ ('[' :: cs)
    = Lexer.after? ⟨.between, .openArray :: tokens⟩ cs :=
  after?_punctuation (b := 0x5b) rfl rfl rfl tokens cs

theorem Lexer.after?_closeArray : Lexer.after? ⟨.between, tokens⟩ (']' :: cs)
    = Lexer.after? ⟨.between, .closeArray :: tokens⟩ cs :=
  after?_punctuation (b := 0x5d) rfl rfl rfl tokens cs

theorem Lexer.after?_openObject : Lexer.after? ⟨.between, tokens⟩ ('\x7b' :: cs)
    = Lexer.after? ⟨.between, .openObject :: tokens⟩ cs :=
  after?_punctuation (b := 0x7b) rfl rfl rfl tokens cs

theorem Lexer.after?_closeObject : Lexer.after? ⟨.between, tokens⟩ ('\x7d' :: cs)
    = Lexer.after? ⟨.between, .closeObject :: tokens⟩ cs :=
  after?_punctuation (b := 0x7d) rfl rfl rfl tokens cs

theorem Lexer.after?_comma : Lexer.after? ⟨.between, tokens⟩ (',' :: cs)
    = Lexer.after? ⟨.between, .comma :: tokens⟩ cs :=
  after?_punctuation (b := 0x2c) rfl rfl rfl tokens cs

theorem Lexer.after?_colon : Lexer.after? ⟨.between, tokens⟩ (':' :: cs)
    = Lexer.after? ⟨.between, .colon :: tokens⟩ cs :=
  after?_punctuation (b := 0x3a) rfl rfl rfl tokens cs

/-- A comma is a token where there is one. -/
theorem Lexer.after?_optionalComma (comma : Bool) :
    Lexer.after? ⟨.between, tokens⟩ ((if comma then [','] else []) ++ cs)
      = Lexer.after? ⟨.between, if comma then .comma :: tokens else tokens⟩ cs := by
  cases comma
  · rfl
  · exact after?_comma tokens cs

theorem Lexer.after?_null : Lexer.after? ⟨.between, tokens⟩ ("null".toList ++ cs)
    = Lexer.after? ⟨.between, .null :: tokens⟩ cs := by
  rw [after?_append]
  rfl

theorem Lexer.after?_bool (b : Bool) :
    Lexer.after? ⟨.between, tokens⟩ ((if b then "true" else "false").toList ++ cs)
      = Lexer.after? ⟨.between, .bool b :: tokens⟩ cs := by
  rw [after?_append]
  cases b <;> rfl

theorem Lexer.after?_space : Lexer.after? ⟨.between, tokens⟩ (' ' :: cs)
    = Lexer.after? ⟨.between, tokens⟩ cs :=
  after?_cons (b := 0x20) rfl _ cs

/-- Line breaks and indentation are no tokens. -/
theorem Lexer.after?_lineBreak (depth : Nat) :
    Lexer.after? ⟨.between, tokens⟩ (lineBreak depth ++ cs)
      = Lexer.after? ⟨.between, tokens⟩ cs := by
  -- Indentation may be of any width.
  have spaces : ∀ n, Lexer.after? ⟨.between, tokens⟩ (List.replicate n ' ' ++ cs)
      = Lexer.after? ⟨.between, tokens⟩ cs := by
    intro n
    induction n with
    | zero => rfl
    | succ n ih => rw [List.replicate_succ, List.cons_append, after?_space, ih]
  rw [lineBreak, List.cons_append]
  exact (after?_cons (b := 0x0a) rfl _ _).trans (spaces _)

end

/-! ## The tokens of texts without white space -/

theorem delimited_compactItems (items : List Json) {cs : List Char} (h : Delimited cs) :
    Delimited (compactItems true items cs) := by
  cases items with
  | nil => exact h
  | cons item items => exact delimited_cons _ (.inl rfl)

theorem delimited_compactMembers (members : List (Option String × Json)) {cs : List Char}
    (h : Delimited cs) : Delimited (compactMembers true members cs) := by
  cases members with
  | nil => exact h
  | cons m members => exact delimited_cons _ (.inl rfl)

mutual

theorem Lexer.after?_compact (value : Json) (h : Proper value) (tokens : List Token)
    {cs : List Char} (hcs : Delimited cs) :
    Lexer.after? ⟨.between, tokens⟩ (compactChars value cs)
      = Lexer.after? ⟨.between, pushed value tokens⟩ cs := by
  match value with
  | .null => rw [compactChars, after?_null, pushed]
  | .bool b => rw [compactChars, after?_bool, pushed]
  | .number numeral => rw [compactChars, after?_render tokens cs h hcs, pushed]
  | .string text => rw [compactChars, after?_literal, pushed]
  | .array items =>
    rw [compactChars, after?_openArray, after?_compactItems false items h _
      (delimited_cons cs (.inr (.inl rfl))), after?_closeArray, pushed]
  | .object members =>
    rw [compactChars, after?_openObject, after?_compactMembers false members h _
      (delimited_cons cs (.inr (.inr (.inl rfl)))), after?_closeObject, pushed]

theorem Lexer.after?_compactItems (comma : Bool) (items : List Json) (h : ProperItems items)
    (tokens : List Token) {cs : List Char} (hcs : Delimited cs) :
    Lexer.after? ⟨.between, tokens⟩ (compactItems comma items cs)
      = Lexer.after? ⟨.between, pushedItems comma items tokens⟩ cs := by
  match items with
  | [] => rw [compactItems, pushedItems]
  | item :: items =>
    rw [compactItems, after?_optionalComma,
      after?_compact item h.1 _ (delimited_compactItems items hcs),
      after?_compactItems true items h.2 _ hcs, pushedItems]

theorem Lexer.after?_compactMembers (comma : Bool) (members : List (Option String × Json))
    (h : ProperMembers members) (tokens : List Token) {cs : List Char} (hcs : Delimited cs) :
    Lexer.after? ⟨.between, tokens⟩ (compactMembers comma members cs)
      = Lexer.after? ⟨.between, pushedMembers comma members tokens⟩ cs := by
  match members with
  | [] => rw [compactMembers, pushedMembers]
  | (key, value) :: members =>
    rw [compactMembers, List.append_assoc, after?_optionalComma, after?_literal, after?_colon,
      after?_compact value h.1 _ (delimited_compactMembers members hcs),
      after?_compactMembers true members h.2 _ hcs, pushedMembers]

end

/-! ## The tokens of texts in lines -/

theorem delimited_lineBreak (depth : Nat) (cs : List Char) : Delimited (lineBreak depth ++ cs) :=
  delimited_cons _ (.inr (.inr (.inr rfl)))

theorem delimited_prettyItems (depth : Nat) (items : List Json) {cs : List Char}
    (h : Delimited cs) : Delimited (prettyItems depth true items cs) := by
  cases items with
  | nil => exact h
  | cons item items => exact delimited_cons _ (.inl rfl)

theorem delimited_prettyMembers (depth : Nat) (members : List (Option String × Json))
    {cs : List Char} (h : Delimited cs) : Delimited (prettyMembers depth true members cs) := by
  cases members with
  | nil => exact h
  | cons m members => exact delimited_cons _ (.inl rfl)

mutual

theorem Lexer.after?_pretty (depth : Nat) (value : Json) (h : Proper value) (tokens : List Token)
    {cs : List Char} (hcs : Delimited cs) :
    Lexer.after? ⟨.between, tokens⟩ (prettyChars depth value cs)
      = Lexer.after? ⟨.between, pushed value tokens⟩ cs := by
  match value with
  | .null => rw [prettyChars, after?_null, pushed]
  | .bool b => rw [prettyChars, after?_bool, pushed]
  | .number numeral => rw [prettyChars, after?_render tokens cs h hcs, pushed]
  | .string text => rw [prettyChars, after?_literal, pushed]
  | .array [] => rw [prettyChars, after?_openArray, after?_closeArray, pushed, pushedItems]
  | .array (item :: items) =>
    rw [prettyChars, after?_openArray, after?_prettyItems (depth + 1) false (item :: items) h _
      (delimited_lineBreak depth _), after?_lineBreak, after?_closeArray, pushed]
  | .object [] => rw [prettyChars, after?_openObject, after?_closeObject, pushed, pushedMembers]
  | .object (member :: members) =>
    rw [prettyChars, after?_openObject, after?_prettyMembers (depth + 1) false (member :: members) h
      _ (delimited_lineBreak depth _), after?_lineBreak, after?_closeObject, pushed]

theorem Lexer.after?_prettyItems (depth : Nat) (comma : Bool) (items : List Json)
    (h : ProperItems items) (tokens : List Token) {cs : List Char} (hcs : Delimited cs) :
    Lexer.after? ⟨.between, tokens⟩ (prettyItems depth comma items cs)
      = Lexer.after? ⟨.between, pushedItems comma items tokens⟩ cs := by
  match items with
  | [] => rw [prettyItems, pushedItems]
  | item :: items =>
    rw [prettyItems, List.append_assoc, after?_optionalComma, after?_lineBreak,
      after?_pretty depth item h.1 _ (delimited_prettyItems depth items hcs),
      after?_prettyItems depth true items h.2 _ hcs, pushedItems]

theorem Lexer.after?_prettyMembers (depth : Nat) (comma : Bool)
    (members : List (Option String × Json)) (h : ProperMembers members) (tokens : List Token)
    {cs : List Char} (hcs : Delimited cs) :
    Lexer.after? ⟨.between, tokens⟩ (prettyMembers depth comma members cs)
      = Lexer.after? ⟨.between, pushedMembers comma members tokens⟩ cs := by
  match members with
  | [] => rw [prettyMembers, pushedMembers]
  | (key, value) :: members =>
    rw [prettyMembers, List.append_assoc, List.append_assoc, after?_optionalComma,
      after?_lineBreak, after?_literal, after?_colon, after?_space,
      after?_pretty depth value h.1 _ (delimited_prettyMembers depth members hcs),
      after?_prettyMembers depth true members h.2 _ hcs, pushedMembers]

end

end Lexing

/-! ## Building values of tokens -/

/-- The automaton that builds a value has come to a state with some tokens, newest first. -/
def Built (tokens : List Token) (builder : Builder) : Prop :=
  tokens.reverse.foldlM Builder.step ⟨[], .value⟩ = some builder

theorem Built.push {tokens : List Token} {builder builder' : Builder} (h : Built tokens builder)
    {token : Token} (hstep : builder.step token = some builder') :
    Built (token :: tokens) builder' := by
  simp only [Built, List.reverse_cons, List.foldlM_append, List.foldlM_cons, List.foldlM_nil] at h ⊢
  rw [h]
  simpa using hstep

/-- A value inside of the open arrays and objects may come next. -/
def Ready (builder : Builder) (frames : List Frame) : Prop :=
  ∀ token, token ≠ .closeArray → builder.step token = Builder.beginValue? frames token

theorem ready_value (frames : List Frame) : Ready ⟨frames, .value⟩ frames := fun _ _ => rfl

theorem ready_firstItem (frames : List Frame) :
    Ready ⟨.array [] :: frames, .firstItem⟩ (.array [] :: frames) := by
  intro token h
  -- Only the end of the array is not taken as a first item.
  cases token <;> first | rfl | exact absurd rfl h

mutual

/-- A value is built from its tokens. -/
theorem built_pushed (value : Json) {tokens : List Token} {builder : Builder} {frames : List Frame}
    (hready : Ready builder frames) (h : Built tokens builder) :
    Built (pushed value tokens) (Builder.complete value frames) := by
  match value with
  | .null => exact h.push (by rw [hready _ (by simp)]; rfl)
  | .bool b => exact h.push (by rw [hready _ (by simp)]; rfl)
  | .number numeral => exact h.push (by rw [hready _ (by simp)]; rfl)
  | .string text => exact h.push (by rw [hready _ (by simp)]; rfl)
  | .array items =>
    -- The bracket opens a frame, in which the items are gathered in reverse.
    have hopen : Built (.openArray :: tokens) ⟨.array [] :: frames, .firstItem⟩ :=
      h.push (by rw [hready _ (by simp)]; rfl)
    rw [pushed]
    match items with
    | [] => exact hopen.push rfl
    | item :: items =>
      rw [pushedItems]
      have hfirst := built_pushed item (ready_firstItem frames) hopen
      refine (built_pushedItems items [item] hfirst).push ?_
      simp [Builder.step, Builder.separate?]
  | .object members =>
    have hopen : Built (.openObject :: tokens) ⟨frames, .firstKey⟩ :=
      h.push (by rw [hready _ (by simp)]; rfl)
    rw [pushed]
    match members with
    | [] => exact hopen.push rfl
    | (key, value) :: members =>
      rw [pushedMembers]
      -- The first member has no comma in front of it, as all others have.
      have hkey : Built (.string key :: .openObject :: tokens) ⟨frames, .colon [] key⟩ :=
        hopen.push rfl
      have hcolon : Built (.colon :: .string key :: .openObject :: tokens)
          ⟨.object [] key :: frames, .value⟩ := hkey.push rfl
      have hfirst := built_pushed value (ready_value _) hcolon
      refine (built_pushedMembers members [(key, value)] hfirst).push ?_
      simp [Builder.step, Builder.separate?]

theorem built_pushedItems (items done : List Json) {tokens : List Token} {frames : List Frame}
    (h : Built tokens ⟨.array done :: frames, .separator⟩) :
    Built (pushedItems true items tokens)
      ⟨.array (items.reverse ++ done) :: frames, .separator⟩ := by
  match items with
  | [] => exact h
  | item :: items =>
    have hcomma : Built (.comma :: tokens) ⟨.array done :: frames, .value⟩ := h.push rfl
    have hitem := built_pushed item (ready_value _) hcomma
    have hrest := built_pushedItems items (item :: done) hitem
    rw [pushedItems, List.reverse_cons, List.append_assoc]
    exact hrest

theorem built_pushedMembers (members done : List (Option String × Json)) {tokens : List Token}
    {frames : List Frame} (h : Built tokens ⟨.object done none :: frames, .separator⟩) :
    Built (pushedMembers true members tokens)
      ⟨.object (members.reverse ++ done) none :: frames, .separator⟩ := by
  match members with
  | [] => exact h
  | (key, value) :: members =>
    have hcomma : Built (.comma :: tokens) ⟨frames, .key done⟩ := h.push rfl
    have hkey : Built (.string key :: .comma :: tokens) ⟨frames, .colon done key⟩ :=
      hcomma.push rfl
    have hcolon : Built (.colon :: .string key :: .comma :: tokens)
        ⟨.object done key :: frames, .value⟩ := hkey.push rfl
    have hvalue := built_pushed value (ready_value _) hcolon
    have hrest := built_pushedMembers members ((key, value) :: done) hvalue
    rw [pushedMembers, List.reverse_cons, List.append_assoc]
    exact hrest

end

/-! ## Texts -/

/-- The tokens of a value describe it. -/
theorem ofTokens?_pushed (value : Json) : ofTokens? (pushed value []).reverse = some value := by
  have h : Built (pushed value []) ⟨[], .nothing value⟩ :=
    built_pushed value (ready_value []) (rfl : Built [] ⟨[], .value⟩)
  rw [ofTokens?, h]
  rfl

/-- A value is read back from its text without white space. -/
theorem parse?_compact {value : Json} (h : value.Proper) :
    parse? (utf8 value.compact) = some value := by
  have htokens := Lexer.after?_compact value h [] delimited_nil
  rw [parse?, compact, Lexer.tokens?_utf8, htokens]
  exact ofTokens?_pushed value

/-- A value is read back from its text in lines. -/
theorem parse?_pretty {value : Json} (h : value.Proper) :
    parse? (utf8 value.pretty) = some value := by
  have htokens := Lexer.after?_pretty 0 value h [] delimited_nil
  rw [parse?, pretty, Lexer.tokens?_utf8, htokens]
  exact ofTokens?_pushed value

end FieldTelemetry.Json
