import FieldTelemetry.Toml.Value

/-!
# Documents

A document is a sequence of lines: entries, headers of tables, and lines without contents. Entries
belong to the table of the last header above them.

## Main definitions

* `Line`: a line
* `Section`: a header and the entries below it
* `parse?`: the table of a document
-/

namespace FieldTelemetry.Toml

/-- A header. -/
inductive Header
  /-- Of a table. -/
  | table (path : List String) (key : String)
  /-- Of one more table in an array of tables. -/
  | element (path : List String) (key : String)
deriving DecidableEq, Repr

/-- A line. -/
inductive Line
  /-- No contents. -/
  | empty
  /-- A header. -/
  | header (header : Header)
  /-- A value under a key. -/
  | entry (entry : (List String × String) × Value)

/-! ## Lines -/

namespace Reader

/-- A header in its brackets. -/
def header : Reader Header := do
  if ← taken "[[" then
    let (path, key) ← keys
    take "]]"
    return .element path key
  else
    take "["
    let (path, key) ← keys
    take "]"
    return .table path key

/-- The next line, if there is one. -/
def line : Reader (Option Line) := do
  blanks
  match ← next? with
  | none => return none
  | some '#' => lineEnd; return some .empty
  | some '\n' | some '\r' => guard (← lineBreak); return some .empty
  | some '[' =>
    let header ← header
    lineEnd
    return some (.header header)
  | some _ =>
    let entry ← entry (value levelLimit)
    lineEnd
    return some (.entry entry)

/-- All lines of a text. A byte order mark in front is passed over. -/
def lines : Reader (List Line) := do
  discard (taken "\ufeff")
  repeated line

end Reader

/-! ## Sections -/

/-- Entries and the header above them. -/
structure Section where
  /-- The header, which the first section does not have. -/
  header : Option Header
  /-- The entries. -/
  entries : List ((List String × String) × Value)

/-- The sections of lines, the first one first. -/
def sections (header : Option Header) : List Line → List Section
  | [] => [⟨header, []⟩]
  | .empty :: lines => sections header lines
  | .header next :: lines => ⟨header, []⟩ :: sections (some next) lines
  | .entry entry :: lines =>
    match sections header lines with
    | first :: rest => { first with entries := entry :: first.entries } :: rest
    | [] => []

/-- The members of a table with those of one more section. -/
def Members.add? (members : Members) (part : Section) : Option Members :=
  match part.header with
  | none => members.insertAll? part.entries
  | some (.table path key) => members.addTable? path key part.entries
  | some (.element path key) => members.addElement? path key part.entries

/-- The table of a document. -/
def parse? (text : String) : Option Value := do
  let (lines, _) ← Reader.lines.run text.toList
  let members ← (sections none lines).foldlM Members.add? []
  return .table (finishMembers members)

end FieldTelemetry.Toml
