import FieldTelemetry.Json.Record
import FieldTelemetry.Net.Base64

/-!
# Authentication

How the collector makes itself known to a server: by a token, by a user with a password, or by a key
in a header field of the server's choice.

## Main definitions

* `Auth`: a method of authentication
* `Auth.field`: the header field that it sends
* `Auth.toJson`, `Auth.ofJson?`: the method in JSON
-/

namespace FieldTelemetry.Delivery

open Json (Slot slots required?)

/-- A method of authentication. -/
inductive Auth
  /-- No authentication. -/
  | none
  /-- A token. -/
  | bearer (token : String)
  /-- A user and a password. -/
  | basic (username password : String)
  /-- A header field and the key in it. -/
  | apiKey (header value : String)
deriving DecidableEq, Repr, Inhabited

namespace Auth

/-- The header field that a method sends, and its value. -/
def field : Auth → Option (String × String)
  | .none => Option.none
  | .bearer token => some ("Authorization", "Bearer " ++ token)
  | .basic username password =>
    some ("Authorization", "Basic " ++ Net.Base64.encode (Text.utf8 (username ++ ":" ++ password)))
  | .apiKey header value => some (header, value)

/-! ## Documents -/

/-- The name of a kind of method, the slots of the kind and the method of their values. -/
structure Form where
  /-- The name of the kind. -/
  kind : String
  /-- The names of its slots. -/
  names : List String
  /-- The method of the values of the slots. -/
  ofTexts? : List String → Option Auth

/-- The forms of the kinds that have slots. -/
def forms : List Form :=
  [⟨"bearer", ["token"], fun | [token] => some (.bearer token) | _ => Option.none⟩,
    ⟨"basic", ["username", "password"], fun
      | [username, password] => some (.basic username password)
      | _ => Option.none⟩,
    ⟨"api_key", ["header", "value"], fun
      | [header, value] => some (.apiKey header value)
      | _ => Option.none⟩]

/-- A method in JSON: an object with the kind and the slots of the kind. -/
def toJson (auth : Auth) : Json :=
  .ofMembers <| match auth with
    | .none => [("kind", .ofString "none")]
    | .bearer token => [("kind", .ofString "bearer"), ("token", .ofString token)]
    | .basic username password =>
      [("kind", .ofString "basic"), ("username", .ofString username),
        ("password", .ofString password)]
    | .apiKey header value =>
      [("kind", .ofString "api_key"), ("header", .ofString header), ("value", .ofString value)]

/-- The method of a kind whose slots are in an object or array. A kind without slots has an empty
array, or an object of any members. -/
def ofKind? (kind : String) (rest : Json) : Option Auth :=
  if kind = "none" then
    match rest with
    | .object _ | .array [] => some .none
    | _ => Option.none
  else do
    let form ← forms.find? (·.kind = kind)
    let values ← Json.slots? (slots false form.names) rest
    form.ofTexts? (← values.mapM (required? Json.text?))

/-- The method of an object with a member for the kind, or of an array with the kind in front. All
other parts can be taken out of their text, and nest at most `depth` deep. -/
def ofJson? (depth : Nat) : Json → Option Auth
  | .object members => do
    let isKind := fun (member : Option String × Json) => member.1 == some "kind"
    let rest := members.filter fun member => !isKind member
    guard (Json.plainMembers depth rest)
    match members.filter isKind with
    | [(_, kind)] => ofKind? (← kind.text?) (.object rest)
    | _ => Option.none
  | .array (kind :: rest) => do
    guard (Json.plainItems depth rest)
    ofKind? (← kind.text?) (.array rest)
  | _ => Option.none

end Auth

end FieldTelemetry.Delivery
