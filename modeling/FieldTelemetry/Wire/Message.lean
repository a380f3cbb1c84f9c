import FieldTelemetry.Text.Digits
import FieldTelemetry.Wire.Field

/-!
# Messages

A message gives an optional value to every field of the schema.

## Main definitions

* `Message`: a message
* `Message.update`, `Message.erase`: a message with one field changed, or with some fields left out
* `DeviceType`: the kinds of devices that the schema declares
* `StampUse`: what a message does with a stamp
* `Message.deviceType?`, `Message.isSensor`, `Message.entityId?`, `Message.stampUse`: what a message
  says about its sender
-/

namespace FieldTelemetry.Wire

/-- A message: an optional value for every field. -/
@[ext]
structure Message where
  /-- The value of a field. -/
  get : (f : Field) → Option f.Value

namespace Message

instance : CoeFun Message (fun _ => (f : Field) → Option f.Value) := ⟨Message.get⟩

/-- The message without any value. -/
def empty : Message := ⟨fun _ => none⟩

instance : Inhabited Message := ⟨empty⟩

instance : DecidableEq Message := fun m n =>
  decidable_of_iff (∀ f ∈ Field.all, m f = n f)
    ⟨fun h => Message.ext (funext fun f => h f (Field.mem_all f)), fun h _ _ => h ▸ rfl⟩

/-- The message with another value, or none, in one field. -/
def update (m : Message) (f : Field) (value : Option f.Value) : Message :=
  ⟨fun g => if h : g = f then h ▸ value else m g⟩

@[simp]
theorem update_same (m : Message) (f : Field) (value : Option f.Value) :
    m.update f value f = value := by
  simp [update]

theorem update_other (m : Message) {f g : Field} (value : Option f.Value) (h : g ≠ f) :
    m.update f value g = m g := by
  simp [update, h]

/-- The message with a value in one field. -/
def set (m : Message) (f : Field) (value : f.Value) : Message := m.update f (some value)

/-- The message without the given fields. -/
def erase (m : Message) (fields : List Field) : Message :=
  ⟨fun f => if f ∈ fields then none else m f⟩

/-- The relays that the message went through, by their position on the way. -/
def relays (m : Message) : List (Option UInt32) :=
  [m .relay1, m .relay2, m .relay3, m .relay4, m .relay5]

/-- The message without its relays. -/
def withoutRelays (m : Message) : Message := m.erase Field.relays

/-- The message without its stamp fields. -/
def withoutStamp (m : Message) : Message := m.erase [.stampVersion, .stamp]

end Message

/-! ## The sender of a message -/

/-- The kinds of devices. -/
inductive DeviceType
  /-- Not declared. -/
  | unknown
  /-- Handheld radiation detector. -/
  | handheld
  /-- Solar-powered fixed station. -/
  | solar
  /-- Another collector. -/
  | collector
  /-- Console of a telephone. -/
  | phone
  /-- Console of a gateway. -/
  | gateway
  /-- Console of a relay. -/
  | relay
  /-- Air-quality station. -/
  | air
deriving DecidableEq, Repr

namespace DeviceType

/-- The kind with a number. -/
def ofCode? (code : Int32) : Option DeviceType :=
  match code.toInt with
  | 0 => some .unknown
  | 1 => some .handheld
  | 2 => some .solar
  | 3 => some .collector
  | 4 => some .phone
  | 5 => some .gateway
  | 6 => some .relay
  | 7 => some .air
  | _ => none

/-- Devices of the kind measure; the others talk. -/
def isSensor : DeviceType → Bool
  | .unknown | .handheld | .solar | .air => true
  | .collector | .phone | .gateway | .relay => false

/-- The label of a kind in records. -/
def label : DeviceType → String
  | .unknown => "unknown"
  | .handheld => "bgeigie-nano"
  | .solar => "solarcast"
  | .collector => "ttserve"
  | .phone => "ttapp"
  | .gateway => "ttgate"
  | .relay => "ttrelay"
  | .air => "safecast-air"

end DeviceType

/-- What a message does with a stamp. -/
inductive StampUse
  /-- It has no stamp. -/
  | none
  /-- It sets a stamp of a version. -/
  | set (version stamp : UInt32)
  /-- It refers to a stamp set before. -/
  | apply (stamp : UInt32)
deriving DecidableEq, Repr

namespace Message

/-- The declared kind of the sender, if it is one of the known ones. -/
def deviceType? (m : Message) : Option DeviceType := do
  DeviceType.ofCode? (← m .deviceType)

/-- The message carries measurements. It does when no kind is declared, and does not when the
declared kind is not known. -/
def isSensor (m : Message) : Bool :=
  match m .deviceType with
  | none => true
  | some code => ((DeviceType.ofCode? code).map DeviceType.isSensor).getD false

/-- The id of the sender as a text, where an empty text counts as none. -/
def name? (m : Message) : Option String :=
  match m .deviceName with
  | some name => if name.isEmpty then none else some name
  | none => none

/-- The id under which the sender is known: the text, or else the number. -/
def entityId? (m : Message) : Option String :=
  match m.name? with
  | some name => some name
  | none => (m .deviceId).map fun id => Text.decimal id.toNat

/-- What the message does with a stamp. -/
def stampUse (m : Message) : StampUse :=
  match m .stampVersion, m .stamp with
  | some version, some stamp => .set version stamp
  | none, some stamp => .apply stamp
  | _, none => .none

end Message

end FieldTelemetry.Wire
