import FieldTelemetry.Json.Value
import FieldTelemetry.Time.Relaxed
import FieldTelemetry.Time.Timestamp

/-!
# Records in JSON

A record is written as an object with one member for each of its slots, and absent values are left
out. It is read from such an object, whatever other members it has, or from an array of its values
in the order of the slots.

## Main definitions

* `Slot`: the name of a member and whether it may be left out of an array
* `slots?`: the values of the slots of a record in a JSON value
* `optional?`, `required?`, `default?`: what a slot may hold
* `Record`: the types that are written and read in this way
-/

namespace FieldTelemetry.Json

open Time (Instant)

/-! ## Single values -/

/-- The Boolean of a value. -/
def bool? : Json → Option Bool
  | .bool b => some b
  | _ => none

/-- The text of a value. -/
def text? : Json → Option String
  | .string text => text
  | _ => none

/-- The whole number of a value. -/
def integer? : Json → Option Int
  | .number numeral => numeral.integer?
  | _ => none

/-- The whole number of a value, from `low` to `high`. -/
def integerIn? (low high : Int) (value : Json) : Option Int := do
  let n ← value.integer?
  if low ≤ n ∧ n ≤ high then some n else none

/-- The natural number of a value below a bound. -/
def naturalBelow? (bound : Nat) (value : Json) : Option Nat :=
  (value.integerIn? 0 (bound - 1 : Int)).map Int.toNat

/-- The unsigned word of eight bits of a value. -/
def uint8? (value : Json) : Option UInt8 := (value.naturalBelow? UInt8.size).map UInt8.ofNat

/-- The unsigned word of thirty-two bits of a value. -/
def uint32? (value : Json) : Option UInt32 := (value.naturalBelow? UInt32.size).map UInt32.ofNat

/-- The unsigned word of sixty-four bits of a value. -/
def uint64? (value : Json) : Option UInt64 := (value.naturalBelow? UInt64.size).map UInt64.ofNat

/-- The signed word of thirty-two bits of a value. -/
def int32? (value : Json) : Option Int32 :=
  (value.integerIn? Int32.minValue.toInt Int32.maxValue.toInt).map Int32.ofInt

/-- The signed word of sixty-four bits of a value. -/
def int64? (value : Json) : Option Int64 :=
  (value.integerIn? Int64.minValue.toInt Int64.maxValue.toInt).map Int64.ofInt

/-- The number of a value, rounded to the single format. -/
def single? : Json → Option Binary32
  | .number numeral => numeral.single?
  | _ => none

/-- The instant of a value. -/
def instant? (value : Json) : Option Instant := do
  Instant.ofRelaxed? (← value.text?)

/-- The value of an unsigned word of thirty-two bits. -/
def ofUInt32 (n : UInt32) : Json := .ofNat n.toNat

/-- The value of an unsigned word of sixty-four bits. -/
def ofUInt64 (n : UInt64) : Json := .ofNat n.toNat

/-- The value of a signed word of thirty-two bits. -/
def ofInt32 (n : Int32) : Json := .ofInt n.toInt

/-- The value of an instant. -/
def ofInstant (instant : Instant) : Json := .ofString instant.zulu

/-- All values of a list that have a reading, if all have one. -/
def readAll? {α : Type} (read : Json → Option α) : List Json → Option (List α)
  | [] => some []
  | item :: items => do
    let first ← read item
    let rest ← readAll? read items
    return first :: rest

/-- The items of an array, read one by one. -/
def items? {α : Type} (read : Json → Option α) : Json → Option (List α)
  | .array items => readAll? read items
  | _ => none

/-! ## Slots -/

/-- A slot of a record. -/
structure Slot where
  /-- The key of its member. -/
  name : String
  /-- It may be left out at the end of an array. -/
  droppable : Bool
deriving DecidableEq, Repr

/-- Slots that all, or none of them, may be left out at the end of an array. -/
def slots (droppable : Bool) (names : List String) : List Slot :=
  names.map fun name => ⟨name, droppable⟩

/-- The value of a slot among the members of an object, where it may stand once. -/
def slot? (members : List (Option String × Json)) (slot : Slot) : Option (Option Json) :=
  match members.filter fun (key, _) => key == some slot.name with
  | [] => some none
  | [(_, value)] => some (some value)
  | _ => none

/-- The values of slots among the members of an object, whose keys are texts. -/
def memberSlots? (form : List Slot) (members : List (Option String × Json)) :
    Option (List (Option Json)) :=
  if members.all fun (key, _) => key.isSome then form.mapM (slot? members) else none

/-- The values of slots in an array. Only droppable ones may be missing at its end. -/
def itemSlots? : List Slot → List Json → Option (List (Option Json))
  | [], [] => some []
  | [], _ :: _ => none
  | slot :: form, [] =>
    if slot.droppable then (itemSlots? form []).map (none :: ·) else none
  | _ :: form, item :: items => (itemSlots? form items).map (some item :: ·)

/-- The values of the slots of a record in an object or array. -/
def slots? (form : List Slot) : Json → Option (List (Option Json))
  | .object members => memberSlots? form members
  | .array items => itemSlots? form items
  | _ => none

/-- The value of a slot that may be absent or null. -/
def optional? {α : Type} (read : Json → Option α) : Option Json → Option (Option α)
  | none => some none
  | some .null => some none
  | some value => (read value).map some

/-- The value of a slot that has to be there. -/
def required? {α : Type} (read : Json → Option α) (value : Option Json) : Option α := do
  read (← value)

/-- The value of a slot that stands for `standard` when it is absent. -/
def default? {α : Type} (standard : α) (read : Json → Option α) : Option Json → Option α
  | none => some standard
  | some value => read value

/-- A type of records: its slots, the values it puts into them and the record of such values. -/
class Record (α : Type) where
  /-- The slots. -/
  form : List Slot
  /-- A value or nothing for each slot. -/
  values : α → List (Option Json)
  /-- The record of the values of all slots. -/
  ofValues? : List (Option Json) → Option α

/-- The members with a value. -/
def present : List Slot → List (Option Json) → List (String × Json)
  | slot :: form, some value :: values => (slot.name, value) :: present form values
  | _ :: form, none :: values => present form values
  | _, _ => []

/-- The object of a record. -/
def ofRecord {α : Type} [Record α] (record : α) : Json :=
  .ofMembers (present (Record.form α) (Record.values record))

/-- The record of an object or array. -/
def record? {α : Type} [Record α] (value : Json) : Option α := do
  Record.ofValues? (← slots? (Record.form α) value)

end FieldTelemetry.Json
