/-!
# Rings

A ring remembers the most recent values, newest first, and forgets the oldest ones beyond its
capacity.

## Main definitions

* `Ring`: the most recent values
* `Ring.push`, `Ring.ofList`: a ring with one more value, and the ring of a list
-/

namespace FieldTelemetry

/-- The most recent values, newest first. -/
structure Ring (capacity : Nat) (α : Type) where
  /-- The values, newest first. -/
  entries : List α
  /-- No more than the capacity are remembered. -/
  length_le : entries.length ≤ capacity

namespace Ring

variable {capacity : Nat} {α : Type}

instance [DecidableEq α] : DecidableEq (Ring capacity α) := fun a b =>
  decidable_of_iff (a.entries = b.entries)
    ⟨fun h => by cases a; cases b; cases h; rfl, fun h => h ▸ rfl⟩

/-- The first values of a list, newest first. -/
def ofList (values : List α) : Ring capacity α :=
  ⟨values.take capacity, List.length_take_le ..⟩

/-- Nothing is remembered. -/
def empty : Ring capacity α := ofList []

instance : Inhabited (Ring capacity α) := ⟨empty⟩

/-- One more value. The oldest one is forgotten when the ring is full. -/
def push (ring : Ring capacity α) (value : α) : Ring capacity α := ofList (value :: ring.entries)

/-- The most recent value. -/
def latest? (ring : Ring capacity α) : Option α := ring.entries.head?

/-- The number of values. -/
def size (ring : Ring capacity α) : Nat := ring.entries.length

@[simp]
theorem entries_ofList (values : List α) :
    (ofList values : Ring capacity α).entries = values.take capacity := rfl

@[simp]
theorem entries_push (ring : Ring capacity α) (value : α) :
    (ring.push value).entries = (value :: ring.entries).take capacity := rfl

end Ring

end FieldTelemetry
