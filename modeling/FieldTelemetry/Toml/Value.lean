import FieldTelemetry.Json.Value
import FieldTelemetry.Toml.Moment
import FieldTelemetry.Toml.Number
import FieldTelemetry.Toml.Quoted

/-!
# Values and tables

A document builds its tables piece by piece. A table comes to be by its own header, on the way to
the header of another table, or by a key with full stops, and this decides what may be added to it
later.

## Main definitions

* `Value`: a value
* `Item`, `Members`: a value or a table that is being built
* `Members.insert?`: a member with a key of several parts
* `Reader.value`: a value as it is written
* `Value.settings`: a value as the settings of a program
-/

namespace FieldTelemetry.Toml

/-- A value. -/
inductive Value
  /-- A Boolean. -/
  | bool (value : Bool)
  /-- A whole number. -/
  | integer (n : Int)
  /-- A float. -/
  | float (x : Float)
  /-- A text. -/
  | text (text : String)
  /-- A date or a time. -/
  | moment (moment : Moment)
  /-- An array. -/
  | array (items : List Value)
  /-- A table. -/
  | table (members : List (String × Value))

/-- How a table came to be. -/
inductive Birth
  /-- By its own header. -/
  | header
  /-- On the way to the header of another table. -/
  | passing
  /-- By a key with full stops. -/
  | dotted
deriving DecidableEq, Repr

/-- A member of a table that is being built. -/
inductive Item
  /-- A value, to which nothing is added. -/
  | value (value : Value)
  /-- A table. -/
  | table (birth : Birth) (members : List (String × Item))
  /-- An array of tables, the latest one last. -/
  | tables (elements : List (List (String × Item)))

/-- The members of a table that is being built. -/
abbrev Members := List (String × Item)

/-! ## Building -/

namespace Members

/-- The member of a key. -/
def get? (members : Members) (key : String) : Option Item :=
  (members.find? (·.1 = key)).map Prod.snd

/-- The members with another item under a key. -/
def put (members : Members) (key : String) (item : Item) : Members :=
  members.filter (·.1 ≠ key) ++ [(key, item)]

/-- The members after a change to the table at the end of a path. The change is told how that table
came to be. Tables on the way that are missing come to be by `birth`, and a key with full stops does
not lead through a table that has a header. -/
def modify? (birth : Birth) (change : Birth → Members → Option Members) (own : Birth) :
    (path : List String) → Members → Option Members
  | [], members => change own members
  | key :: path, members =>
    match members.get? key with
    | none => do
      return members.put key (.table birth (← modify? birth change birth path []))
    | some (.value _) => none
    | some (.table own inner) =>
      -- A table with a header is complete; a dotted key cannot add to it from outside.
      if birth = .dotted ∧ own = .header then none
      else do return members.put key (.table own (← modify? birth change own path inner))
    -- A path leads into the latest element of an array of tables.
    | some (.tables elements) => do
      let latest ← elements.getLast?
      return members.put key (.tables (elements.dropLast
        ++ [← modify? birth change .header path latest]))

/-- The members with a value under a key of several parts. The key is new, and where it has several
parts, the table of the last one came to be by such a key too. -/
def insert? (members : Members) (path : List String) (key : String) (value : Value) :
    Option Members :=
  modify? .dotted (fun own table => do
    guard (path = [] ∨ own = .dotted)
    guard (table.get? key).isNone
    return table.put key (.value value)) .header path members

/-- The members with several values under keys of several parts. -/
def insertAll? (members : Members) (entries : List ((List String × String) × Value)) :
    Option Members :=
  entries.foldlM (fun members ((path, key), value) => members.insert? path key value) members

/-- The members with a table that has a header of its own. It may have come to be only on the way to
the header of another table. -/
def addTable? (members : Members) (path : List String) (key : String)
    (entries : List ((List String × String) × Value)) : Option Members :=
  modify? .passing (fun _ table => do
    let start ← match table.get? key with
      | none => some []
      | some (.table .passing inner) => some inner
      | some _ => none
    return table.put key (.table .header (← insertAll? start entries))) .header path members

/-- The members with one more table in an array of tables. -/
def addElement? (members : Members) (path : List String) (key : String)
    (entries : List ((List String × String) × Value)) : Option Members :=
  modify? .passing (fun _ table => do
    let earlier ← match table.get? key with
      | none => some []
      | some (.tables elements) => some elements
      | some _ => none
    return table.put key (.tables (earlier ++ [← insertAll? [] entries]))) .header path members

end Members

mutual

/-- The value of an item. -/
def Item.finish : Item → Value
  | .value value => value
  | .table _ members => .table (finishMembers members)
  | .tables elements => .array (finishElements elements)

/-- The values of the members of a table. -/
def finishMembers : List (String × Item) → List (String × Value)
  | [] => []
  | (key, item) :: members => (key, item.finish) :: finishMembers members

/-- The values of an array of tables. -/
def finishElements : List (List (String × Item)) → List Value
  | [] => []
  | members :: elements => .table (finishMembers members) :: finishElements elements

end

/-! ## Reading -/

namespace Reader

/-- A text as it is written. -/
def text : Reader String := fun cs =>
  if "\"\"\"".toList.isPrefixOf cs then longBasic cs
  else if "'''".toList.isPrefixOf cs then longLiteral cs
  else if cs.head? = some '"' then basic cs
  else literal cs

/-- A value that has no parts. -/
def scalar : Reader Value := do
  match ← next? with
  | some '"' | some '\'' => return .text (← text)
  | some 't' => take "true"; return .bool true
  | some 'f' => take "false"; return .bool false
  | _ =>
    match ← moment with
    | some moment => return .moment moment
    | none =>
      match ← number with
      | .inl n => return .integer n
      | .inr x => return .float x

/-- A key, an equals sign and a value. -/
def entry (value : Reader Value) : Reader ((List String × String) × Value) := do
  let keys ← keys
  take "="
  blanks
  return (keys, ← value)

/-- An array, whose items `value` reads. A comma may follow the last item. -/
def array (value : Reader Value) : Reader (List Value) := do
  take "["
  repeated do
    gap
    if ← taken "]" then return none
    let item ← value
    gap
    unless ← taken "," do guard ((← next?) = some ']')
    return some item

/-- A table on one line, whose values `value` reads. -/
def inlineTable (value : Reader Value) : Reader (List (String × Value)) := do
  take "\x7b"
  blanks
  if ← taken "\x7d" then return []
  let first ← entry value
  let rest ← repeated do
    blanks
    if ← taken "\x7d" then return none
    take ","
    return some (← entry value)
  return finishMembers (← Members.insertAll? [] (first :: rest))

/-- A value, with less than the given number of levels. -/
def value : (levels : Nat) → Reader Value
  | 0 => failure
  | levels + 1 => do
    match ← next? with
    | some '[' => guard (0 < levels); return .array (← array (value levels))
    | some '\x7b' => guard (0 < levels); return .table (← inlineTable (value levels))
    | _ => scalar

end Reader

/-! ## Settings -/

mutual

/-- A value as the settings of a program, which have no use for dates, times and floats. A date or a
time counts as an object without settings. A float counts as a number that is not whole. -/
def Value.settings : Value → Json
  | .bool value => .bool value
  | .integer n => .ofInt n
  | .float (.finite numeral) => .number { numeral with fraction := numeral.fraction ++ [0] }
  | .float _ => .number ⟨false, [0], [0], none⟩
  | .text text => .ofString text
  | .moment _ => .ofMembers []
  | .array items => .array (itemSettings items)
  | .table members => .object (memberSettings members)

/-- The items of an array as settings. -/
def itemSettings : List Value → List Json
  | [] => []
  | item :: items => item.settings :: itemSettings items

/-- The members of a table as settings. -/
def memberSettings : List (String × Value) → List (Option String × Json)
  | [] => []
  | (key, value) :: members => (some key, value.settings) :: memberSettings members

end

end FieldTelemetry.Toml
