import FieldTelemetry.Json.Token

/-!
# JSON values of tokens

The value that a sequence of tokens describes, built by an automaton with a stack of the arrays and
objects that are still open.

## Main definitions

* `Builder.step`: the automaton
* `Json.parse?`: the value of a text
-/

namespace FieldTelemetry.Json

/-- An array or object that is still open, its parts newest first. -/
inductive Frame
  /-- An array with its items. -/
  | array (items : List Json)
  /-- An object with its members and the key of the value that follows. -/
  | object (members : List (Option String × Json)) (key : Option String)

/-- What may come next. -/
inductive Expected
  /-- A value. -/
  | value
  /-- A value, or the end of an empty array. -/
  | firstItem
  /-- A key. -/
  | key (members : List (Option String × Json))
  /-- A key, or the end of an empty object. -/
  | firstKey
  /-- The colon after a key. -/
  | colon (members : List (Option String × Json)) (key : Option String)
  /-- A comma or the end of the innermost array or object. -/
  | separator
  /-- Nothing: the value is complete. -/
  | nothing (value : Json)

/-- The automaton. -/
structure Builder where
  /-- The open arrays and objects, innermost first. -/
  frames : List Frame
  /-- What may come next. -/
  expected : Expected

namespace Builder

/-- The automaton after a complete value. -/
def complete (value : Json) : List Frame → Builder
  | [] => ⟨[], .nothing value⟩
  | .array items :: frames => ⟨.array (value :: items) :: frames, .separator⟩
  | .object members key :: frames => ⟨.object ((key, value) :: members) none :: frames, .separator⟩

/-- A token where a value may begin. -/
def beginValue? (frames : List Frame) : Token → Option Builder
  | .openArray => some ⟨.array [] :: frames, .firstItem⟩
  | .openObject => some ⟨frames, .firstKey⟩
  | .null => some (complete .null frames)
  | .bool b => some (complete (.bool b) frames)
  | .number numeral => some (complete (.number numeral) frames)
  | .string text => some (complete (.string text) frames)
  | .closeArray | .closeObject | .comma | .colon => none

/-- A token after a complete value in an array or object. -/
def separate? : List Frame → Token → Option Builder
  | .array items :: frames, .comma => some ⟨.array items :: frames, .value⟩
  | .array items :: frames, .closeArray => some (complete (.array items.reverse) frames)
  | .object members _ :: frames, .comma => some ⟨frames, .key members⟩
  | .object members _ :: frames, .closeObject => some (complete (.object members.reverse) frames)
  | _, _ => none

/-- One token further. -/
def step (builder : Builder) (token : Token) : Option Builder :=
  let frames := builder.frames
  match builder.expected with
  | .value => beginValue? frames token
  | .firstItem =>
    match frames, token with
    | .array _ :: frames, .closeArray => some (complete (.array []) frames)
    | frames, token => beginValue? frames token
  | .firstKey =>
    match token with
    | .closeObject => some (complete (.object []) frames)
    | .string key => some ⟨frames, .colon [] key⟩
    | _ => none
  | .key members =>
    match token with
    | .string key => some ⟨frames, .colon members key⟩
    | _ => none
  | .colon members key =>
    match token with
    | .colon => some ⟨.object members key :: frames, .value⟩
    | _ => none
  | .separator => separate? frames token
  | .nothing _ => none

/-- The value, if it is complete. -/
def finish? (builder : Builder) : Option Json :=
  match builder.frames, builder.expected with
  | [], .nothing value => some value
  | _, _ => none

end Builder

/-- The value that tokens describe, if they describe one. -/
def ofTokens? (tokens : List Token) : Option Json := do
  (← tokens.foldlM Builder.step ⟨[], .value⟩).finish?

/-- The value of a text, if it is a JSON text. -/
def parse? (text : Octets) : Option Json := do
  ofTokens? (← tokens? text)

end FieldTelemetry.Json
