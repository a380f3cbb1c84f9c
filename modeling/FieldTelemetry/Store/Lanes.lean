import FieldTelemetry.Table

/-!
# Lanes

Whoever is going to change an entity takes a ticket first, and may begin when the ticket taken
before it for the same entity has been given back. So changes to one entity happen one by one and
in the order of their tickets, and changes to different entities do not wait for each other.

## Main definitions

* `Ticket`: a place in the lane of an entity
* `Lanes.take`, `Lanes.mayPass`, `Lanes.giveBack`: taking a ticket, its turn, and its end
-/

namespace FieldTelemetry.Store

/-- A place in the lane of an entity. -/
structure Ticket where
  /-- The entity. -/
  id : String
  /-- The number of the ticket. -/
  number : Nat
  /-- The ticket before it, if one was held when it was taken. -/
  behind : Option Nat
deriving DecidableEq, Repr

/-- The lanes of all entities. -/
structure Lanes where
  /-- How many tickets have been taken. -/
  taken : Nat := 0
  /-- The newest ticket of each entity, while it is held. -/
  tails : Table String Nat := .empty
  /-- The tickets that are held. -/
  held : List Nat := []

namespace Lanes

instance : Inhabited Lanes := ⟨{}⟩

/-- The next ticket for an entity. -/
def take (lanes : Lanes) (id : String) : Ticket × Lanes :=
  let number := lanes.taken + 1
  (⟨id, number, lanes.tails.get? id⟩,
    ⟨number, lanes.tails.insert id number, number :: lanes.held⟩)

/-- The ticket before this one is not held any more. -/
def mayPass (lanes : Lanes) (ticket : Ticket) : Bool := ticket.behind.all (· ∉ lanes.held)

/-- The lanes after a ticket was given back. -/
def giveBack (lanes : Lanes) (ticket : Ticket) : Lanes where
  taken := lanes.taken
  tails :=
    if lanes.tails.get? ticket.id = some ticket.number then lanes.tails.erase ticket.id
    else lanes.tails
  held := lanes.held.filter (· ≠ ticket.number)

end Lanes

end FieldTelemetry.Store
