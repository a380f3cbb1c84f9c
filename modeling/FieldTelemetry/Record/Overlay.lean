import FieldTelemetry.Number.Binary

/-!
# Overlays

An update says only what it knows: its values replace those of the current state, and where it has
none the current state stays.

## Main definitions

* `Overlay`: the types whose values can be laid over one another
* `overlayGroup`: an optional group under an update
* `Alike`: the types with the equality that decides whether a value has changed
-/

namespace FieldTelemetry

/-- The types whose values can be laid over one another. -/
class Overlay (α : Type) where
  /-- The values of `update` where it has some, and those of `current` elsewhere. -/
  overlay : (current update : α) → α

/-- An optional group under an update: filled when it was absent, and overlaid when both have it. -/
def overlayGroup {α : Type} [Overlay α] : (current update : Option α) → Option α
  | some current, some update => some (Overlay.overlay current update)
  | current, update => update.or current

/-- The types with the equality that decides whether a value has changed. It compares numbers as
numbers, so a zero has not changed when its sign has, and a NaN always has. -/
class Alike (α : Type) where
  /-- The two values count as the same. -/
  alike : α → α → Bool

instance {α : Type} [Alike α] : Alike (Option α) where
  alike
    | none, none => true
    | some a, some b => Alike.alike a b
    | _, _ => false

instance : Alike Binary32 where
  alike x y := decide (Binary32.SameNumber x y)

/-- Two optional numbers count as the same. -/
def sameNumber (x y : Option Binary32) : Bool := Alike.alike x y

end FieldTelemetry
