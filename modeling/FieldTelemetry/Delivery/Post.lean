import FieldTelemetry.Delivery.Auth
import FieldTelemetry.Delivery.Command
import FieldTelemetry.Json.Render
import FieldTelemetry.Record.SensorRecord
import FieldTelemetry.Table

/-!
# Delivery by posts

Readings are posted as JSON to a server, and alerts and commands as texts to a webhook of the
operators. A server refuses a post by a status of 400 or more.

## Main definitions

* `checkUrl`: whether posts can go to a URL
* `ExportTarget`: where readings are posted to, and how
* `Post`: a post
* `Post.outcome`: what the answer of a server means
-/

namespace FieldTelemetry.Delivery

/-- A URL that posts cannot go to. -/
structure UrlError where
  /-- The URL. -/
  url : String
deriving DecidableEq, Repr

/-- The wording of the error. -/
def UrlError.message (error : UrlError) : String :=
  "configuration error: " ++ error.url ++ ": URL must start with http:// or https://"

/-- Posts go to absolute URLs of the web. -/
def checkUrl (url : String) : Except UrlError Unit :=
  if "http://".toList.isPrefixOf url.toList || "https://".toList.isPrefixOf url.toList then .ok ()
  else .error ⟨url⟩

/-- Where readings are posted to, and how. -/
structure ExportTarget where
  /-- The server. -/
  url : String
  /-- How many seconds a post may take. -/
  timeout : Nat := 10
  /-- The method of authentication. -/
  auth : Auth := .none
  /-- Further header fields, each set once. -/
  headers : Table String String := .empty
  /-- How the collector calls itself. -/
  userAgent : String := "telecast/0.1.0"
  /-- The name of the target in messages. -/
  name : String := "http-export"

namespace ExportTarget

/-- The target with one more header field, in the place of an earlier one of the same name. -/
def withHeader (target : ExportTarget) (name value : String) : ExportTarget :=
  { target with headers := target.headers.insert name value }

end ExportTarget

/-! ## Posts -/

/-- A post. -/
structure Post where
  /-- The server. -/
  url : String
  /-- The header fields. A later one stands in the place of an earlier one of the same name. -/
  header : List (String × String)
  /-- The body. -/
  body : String
deriving DecidableEq, Repr

namespace Post

/-- The header fields of every post. -/
def standardHeader : List (String × String) :=
  [("Content-Type", "application/json"), ("Accept", "application/json")]

/-- The post of a reading. -/
def ofRecord (target : ExportTarget) (record : SensorRecord) : Post where
  url := target.url
  header := ("User-Agent", target.userAgent) :: standardHeader ++ target.headers.entries
    ++ target.auth.field.toList
  body := (Json.ofRecord record).compact

/-- The post of a text to a webhook. -/
def ofText (url text : String) : Post where
  url := url
  header := standardHeader
  body := (Json.ofMembers [("text", .ofString text)]).compact

/-- The post of a command to a webhook. -/
def ofCommand (url : String) (command : Command) : Post := ofText url command.line

/-- What the answer of a server to a post means: success, or why the server refused it. -/
def outcome (status : Nat) (body : String) : Except String Unit :=
  if 400 ≤ status then .error ("server returned " ++ Text.decimal status ++ ": " ++ body)
  else .ok ()

end Post

end FieldTelemetry.Delivery
