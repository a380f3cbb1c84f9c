import FieldTelemetry.Table
import FieldTelemetry.Text.Digits
import FieldTelemetry.Text.Octets
import FieldTelemetry.Time.Instant

/-!
# Folders of files

Documents are kept as files of one folder, each named for what it is about. The contents of a file
are replaced as a whole: they are written to a hidden temporary file, which then takes the name.

## Main definitions

* `Folder`: a folder, or what stands in its place
* `Folder.read`, `Folder.replace`: the contents of a file, and other contents for it
* `fileName`, `documentOf?`, `temporaryName`: the names of files
-/

namespace FieldTelemetry.Store

open Time (Instant)

/-! ## Names -/

/-- The name of the file about something. -/
def fileName (id : String) : String := id ++ ".json"

/-- The name of a hidden file that new contents are written to. Its number is random. -/
def temporaryName (name : String) (number : UInt64) : String :=
  "." ++ name ++ "." ++ Text.paddedHex 16 number.toNat ++ ".tmp"

/-- The size of a temporary name, which does not depend on its number. -/
def temporarySize (name : String) : Nat := name.utf8ByteSize + 22

/-- What the file with a name is about. Hidden files are about nothing. -/
def documentOf? (name : String) : Option String :=
  match name.toList.reverse with
  | 'n' :: 'o' :: 's' :: 'j' :: '.' :: stem =>
    match stem.reverse with
    | [] => none
    | '.' :: _ => none
    | id => some (String.ofList id)
  | _ => none

/-- The longest name of a file, in octets. -/
def nameLimit : Nat := 255

/-! ## Contents -/

/-- An entry of a folder. -/
inductive Node
  /-- A file with its contents and the time when they were written. -/
  | file (contents : Octets) (modified : Instant)
  /-- A folder. -/
  | folder

/-- A folder, or what stands in its place. -/
inductive Folder
  /-- There is nothing. -/
  | missing
  /-- A file stands in its place. -/
  | blocked
  /-- The folder with its entries. -/
  | entries (nodes : Table String Node)

/-- What is found where a file is looked for. -/
inductive Fetched
  /-- It could not be read. -/
  | failed
  /-- There is no such file. -/
  | absent
  /-- The contents. -/
  | contents (octets : Octets)
deriving DecidableEq

namespace Folder

instance : Inhabited Folder := ⟨missing⟩

/-- An empty folder. -/
def empty : Folder := .entries .empty

/-- The entries of a folder. -/
def nodes : Folder → Table String Node
  | missing | blocked => .empty
  | entries nodes => nodes

/-- The contents of a file. -/
def read (folder : Folder) (name : String) : Fetched :=
  match folder with
  | missing => .absent
  | blocked => .failed
  | entries nodes =>
    if nameLimit < name.utf8ByteSize then .failed
    else
      match nodes.get? name with
      | none => .absent
      | some (.file contents _) => .contents contents
      | some .folder => .failed

/-- Whether the contents of a file could be replaced, and the folder afterwards. A missing folder is
made. -/
def replace (folder : Folder) (name : String) (contents : Octets) (now : Instant) :
    Bool × Folder :=
  match folder with
  | blocked => (false, blocked)
  | missing | entries _ =>
    let nodes := folder.nodes
    let fits := temporarySize name ≤ nameLimit
    match nodes.get? name with
    | some .folder => (false, .entries nodes)
    | _ =>
      if fits then (true, .entries (nodes.insert name (.file contents now)))
      else (false, .entries nodes)

/-- The folder with an entry put into it by somebody else. -/
def put (folder : Folder) (name : String) (node : Node) : Folder :=
  match folder with
  | blocked => blocked
  | missing | entries _ => .entries (folder.nodes.insert name node)

/-- The folder without an entry. -/
def remove (folder : Folder) (name : String) : Folder :=
  match folder with
  | entries nodes => .entries (nodes.erase name)
  | _ => folder

/-- The names of all entries, sorted. -/
def names (folder : Folder) : List String := folder.nodes.keys.mergeSort fun a b => a ≤ b

end Folder

end FieldTelemetry.Store
