import FieldTelemetry.Store.Lanes
import Mathlib.Data.List.Chain
import Mathlib.Data.List.Nodup

/-!
# The order of tickets

The tickets that are held, in the order in which they were taken, form a queue for every entity:
each waits for the one before it, and only the first may pass.

## Main definitions

* `ofId`: the tickets of an entity
* `Lanes.Orderly`: the lanes hold the tickets of a list, which form such queues

## Main results

* `Lanes.Orderly.mayPass_iff`: a ticket may pass when it is the first of its entity
* `Lanes.Orderly.take`, `Lanes.Orderly.giveBack`: the order stays when tickets are taken and given
  back
-/

namespace FieldTelemetry.Store

/-! ## Tickets of an entity -/

/-- The tickets of an entity. -/
def ofId (id : String) (tickets : List Ticket) : List Ticket := tickets.filter (·.id = id)

section OfId

variable {id : String} {before after : List Ticket} {ticket : Ticket}

theorem ofId_append (id : String) (before after : List Ticket) :
    ofId id (before ++ after) = ofId id before ++ ofId id after :=
  List.filter_append ..

theorem ofId_cons_of_eq (h : ticket.id = id) (after : List Ticket) :
    ofId id (ticket :: after) = ticket :: ofId id after :=
  List.filter_cons_of_pos (by simp [h])

theorem ofId_cons_of_ne (h : ticket.id ≠ id) (after : List Ticket) :
    ofId id (ticket :: after) = ofId id after :=
  List.filter_cons_of_neg (by simp [h])

theorem ofId_concat_of_eq (h : ticket.id = id) (before : List Ticket) :
    ofId id (before ++ [ticket]) = ofId id before ++ [ticket] := by
  rw [ofId_append, ofId_cons_of_eq h]
  rfl

theorem ofId_concat_of_ne (h : ticket.id ≠ id) (before : List Ticket) :
    ofId id (before ++ [ticket]) = ofId id before := by
  rw [ofId_append, ofId_cons_of_ne h]
  exact List.append_nil _

theorem mem_of_mem_ofId {tickets : List Ticket} (h : ticket ∈ ofId id tickets) :
    ticket ∈ tickets :=
  List.mem_of_mem_filter h

theorem id_of_mem_ofId {tickets : List Ticket} (h : ticket ∈ ofId id tickets) : ticket.id = id :=
  of_decide_eq_true (List.mem_filter.mp h).2

end OfId

namespace Lanes

theorem id_take (lanes : Lanes) (id : String) : (lanes.take id).1.id = id := rfl

theorem get?_tails_giveBack (lanes : Lanes) (ticket : Ticket) (id : String) :
    (lanes.giveBack ticket).tails.get? id
      = if id = ticket.id ∧ lanes.tails.get? ticket.id = some ticket.number then none
        else lanes.tails.get? id := by
  rw [giveBack]
  split
  · rename_i hnewest
    rw [Table.get?_erase]
    simp [hnewest]
  · rename_i hother
    simp [hother]

/-! ## Queues of tickets -/

/-- The lanes hold the tickets of a list, which were taken in the order of the list. -/
structure Orderly (lanes : Lanes) (tickets : List Ticket) : Prop where
  /-- The tickets of the list are held. -/
  held : ∀ n, n ∈ lanes.held ↔ n ∈ tickets.map Ticket.number
  /-- No two of them have the same number. -/
  nodup : (tickets.map Ticket.number).Nodup
  /-- Their numbers have been used. -/
  number_le : ∀ ticket ∈ tickets, ticket.number ≤ lanes.taken
  /-- Numbers that are waited for have been used. -/
  behind_le : ∀ ticket ∈ tickets, ∀ n, ticket.behind = some n → n ≤ lanes.taken
  /-- The newest ticket of an entity is the last one. -/
  tail : ∀ id, lanes.tails.get? id = (ofId id tickets).getLast?.map Ticket.number
  /-- Every ticket waits for the one before it. -/
  chain : ∀ id, (ofId id tickets).IsChain fun a b => b.behind = some a.number
  /-- The first ticket of an entity waits for none that is held. -/
  head : ∀ id, ∀ ticket ∈ (ofId id tickets).head?, ∀ n, ticket.behind = some n →
    n ∉ tickets.map Ticket.number

namespace Orderly

variable {lanes : Lanes} {before after : List Ticket} {ticket : Ticket}

theorem empty : Orderly {} [] where
  held _ := Iff.rfl
  nodup := List.nodup_nil
  number_le _ h := absurd h List.not_mem_nil
  behind_le _ h := absurd h List.not_mem_nil
  tail _ := rfl
  chain _ := .nil
  head _ _ h := absurd h (by simp [ofId])

/-- A ticket may pass when it is the first of its entity. -/
theorem mayPass_iff (h : Orderly lanes (before ++ ticket :: after)) :
    lanes.mayPass ticket = true ↔ ofId ticket.id before = [] := by
  have hsplit : ofId ticket.id (before ++ ticket :: after)
      = ofId ticket.id before ++ ticket :: ofId ticket.id after := by
    rw [ofId_append, ofId_cons_of_eq rfl]
  constructor
  · intro hpass
    by_contra hne
    obtain ⟨front, previous, hlast⟩ := (List.eq_nil_or_concat' _).resolve_left hne
    have hchain := h.chain ticket.id
    rw [hsplit, hlast, List.append_assoc, List.singleton_append, List.isChain_append_cons_cons]
      at hchain
    -- The ticket before this one is still held, so this one has to wait.
    have hmem : previous ∈ before := mem_of_mem_ofId (hlast ▸ List.mem_concat_self)
    have hheld := (h.held previous.number).mpr
      (List.mem_map_of_mem (List.mem_append_left _ hmem))
    rw [mayPass, hchain.2.1] at hpass
    simp [hheld] at hpass
  · intro hnone
    cases hbehind : ticket.behind with
    | none => rw [mayPass, hbehind, Option.all_none]
    | some n =>
      have hfirst : ticket ∈ (ofId ticket.id (before ++ ticket :: after)).head? := by
        rw [hsplit, hnone]
        rfl
      have hfree := h.head ticket.id ticket hfirst n hbehind
      rw [← h.held] at hfree
      rw [mayPass, hbehind, Option.all_some, decide_eq_true hfree]

/-- The next ticket comes last. -/
theorem take {tickets : List Ticket} (h : Orderly lanes tickets) (id : String) :
    Orderly (lanes.take id).2 (tickets ++ [(lanes.take id).1]) := by
  have hnumbers : (tickets ++ [(lanes.take id).1]).map Ticket.number
      = tickets.map Ticket.number ++ [lanes.taken + 1] := List.map_append
  have hnew : lanes.taken + 1 ∉ tickets.map Ticket.number := by
    intro hmem
    obtain ⟨ticket, hticket, hnumber⟩ := List.mem_map.mp hmem
    have := h.number_le ticket hticket
    omega
  have hself : ofId id (tickets ++ [(lanes.take id).1])
      = ofId id tickets ++ [(lanes.take id).1] := ofId_concat_of_eq (lanes.id_take id) tickets
  have hother {other : String} (hne : other ≠ id) :
      ofId other (tickets ++ [(lanes.take id).1]) = ofId other tickets :=
    ofId_concat_of_ne (Ne.symm hne) tickets
  refine ⟨?_, ?_, ?_, ?_, ?_, ?_, ?_⟩
  · intro n
    rw [hnumbers, List.mem_append, List.mem_singleton, ← h.held, Or.comm]
    exact List.mem_cons
  · rw [hnumbers]
    exact h.nodup.append (List.nodup_singleton _) (List.disjoint_singleton.mpr hnew)
  · intro ticket hmem
    rcases List.mem_append.mp hmem with hmem | hmem
    · exact (h.number_le ticket hmem).trans (Nat.le_succ _)
    · rw [List.mem_singleton.mp hmem]
      exact le_rfl
  · intro ticket hmem n hbehind
    rcases List.mem_append.mp hmem with hmem | hmem
    · exact (h.behind_le ticket hmem n hbehind).trans (Nat.le_succ _)
    · rw [List.mem_singleton.mp hmem] at hbehind
      -- It waits for the newest ticket so far, whose number is that of a ticket of the list.
      have hlast := (h.tail id).symm.trans hbehind
      obtain ⟨last, hmem, rfl⟩ := Option.map_eq_some_iff.mp hlast
      exact (h.number_le last (mem_of_mem_ofId (List.mem_of_getLast? hmem))).trans (Nat.le_succ _)
  · intro other
    change (lanes.tails.insert id (lanes.taken + 1)).get? other = _
    rw [Table.get?_insert]
    split
    · rename_i heq
      rw [heq, hself, List.getLast?_concat]
      rfl
    · rename_i hne
      rw [hother hne, h.tail]
  · intro other
    by_cases heq : other = id
    · rw [heq, hself, List.isChain_append]
      refine ⟨h.chain id, .singleton _, ?_⟩
      rintro last hlast _ ⟨⟩
      exact (h.tail id).trans (Option.map_eq_some_iff.mpr ⟨last, hlast, rfl⟩)
    · rw [hother heq]
      exact h.chain other
  · intro other ticket hfirst n hbehind
    rw [hnumbers, List.mem_append, List.mem_singleton, not_or]
    by_cases heq : other = id
    · rw [heq, hself] at hfirst
      cases htickets : ofId id tickets with
      | nil =>
        -- The first ticket of the entity waits for nothing.
        rw [htickets] at hfirst
        cases hfirst
        have hnone := h.tail id
        rw [htickets] at hnone
        exact absurd (hnone.symm.trans hbehind) (by simp)
      | cons first rest =>
        rw [htickets] at hfirst
        cases hfirst
        have hmem : ticket ∈ ofId id tickets := htickets ▸ List.mem_cons_self
        have hle := h.behind_le ticket (mem_of_mem_ofId hmem) n hbehind
        refine ⟨h.head id ticket ?_ n hbehind, by omega⟩
        rw [htickets]
        rfl
    · rw [hother heq] at hfirst
      have hmem := List.mem_of_mem_head? hfirst
      have hle := h.behind_le ticket (mem_of_mem_ofId hmem) n hbehind
      exact ⟨h.head other ticket hfirst n hbehind, by omega⟩

/-- A ticket that may pass leaves the others in their order. -/
theorem giveBack (h : Orderly lanes (before ++ ticket :: after))
    (hpass : lanes.mayPass ticket = true) :
    Orderly (lanes.giveBack ticket) (before ++ after) := by
  have hnone := h.mayPass_iff.mp hpass
  have hsub : before ++ after ⊆ before ++ ticket :: after :=
    (List.Sublist.append_left (List.sublist_cons_self ..) before).subset
  have hnumbers : (before ++ ticket :: after).map Ticket.number
      = before.map Ticket.number ++ ticket.number :: after.map Ticket.number := List.map_append
  have hnodup := h.nodup
  rw [hnumbers, List.nodup_middle, ← List.map_append, List.nodup_cons] at hnodup
  have hself : ofId ticket.id (before ++ ticket :: after)
      = ticket :: ofId ticket.id (before ++ after) := by
    rw [ofId_append, ofId_append, hnone, ofId_cons_of_eq rfl]
    rfl
  have hother {other : String} (hne : other ≠ ticket.id) :
      ofId other (before ++ ticket :: after) = ofId other (before ++ after) := by
    rw [ofId_append, ofId_append, ofId_cons_of_ne (Ne.symm hne)]
  refine ⟨?_, hnodup.2, ?_, ?_, ?_, ?_, ?_⟩
  · intro n
    change n ∈ lanes.held.filter (· ≠ ticket.number) ↔ _
    rw [List.mem_filter, h.held, hnumbers, List.mem_append, List.mem_cons, List.map_append,
      List.mem_append, decide_eq_true_iff]
    rw [List.map_append, List.mem_append] at hnodup
    constructor
    · rintro ⟨hbefore | rfl | hafter, hne⟩
      · exact .inl hbefore
      · exact absurd rfl hne
      · exact .inr hafter
    · intro hmem
      refine ⟨hmem.imp_right .inr, ?_⟩
      rintro rfl
      exact hnodup.1 hmem
  · exact fun other hmem => h.number_le other (hsub hmem)
  · exact fun other hmem => h.behind_le other (hsub hmem)
  · intro other
    have htail := h.tail other
    rw [get?_tails_giveBack]
    by_cases heq : other = ticket.id
    · subst heq
      rw [hself, List.getLast?_cons] at htail
      cases hrest : (ofId ticket.id (before ++ after)).getLast? with
      | none =>
        -- It is the newest ticket of the entity, and no other is left.
        rw [hrest] at htail
        exact if_pos ⟨rfl, htail⟩
      | some last =>
        rw [hrest] at htail
        have hmem := mem_of_mem_ofId (List.mem_of_getLast? hrest)
        have hne : last.number ≠ ticket.number :=
          fun heq => hnodup.1 (heq ▸ List.mem_map_of_mem hmem)
        refine (if_neg ?_).trans htail
        rintro ⟨-, hnewest⟩
        exact hne (Option.some.inj (htail.symm.trans hnewest))
    · rw [if_neg fun hself => heq hself.1, htail, hother heq]
  · intro other
    by_cases heq : other = ticket.id
    · have hchain := h.chain ticket.id
      rw [hself] at hchain
      rw [heq]
      exact hchain.tail
    · rw [← hother heq]
      exact h.chain other
  · intro other first hfirst n hbehind hmem
    by_cases heq : other = ticket.id
    · subst heq
      -- The next ticket of the entity waits for the one that is given back.
      have hchain := h.chain ticket.id
      rw [hself, List.isChain_cons] at hchain
      have hnumber := (hchain.1 first hfirst).symm.trans hbehind
      cases hnumber
      exact hnodup.1 hmem
    · rw [← hother heq] at hfirst
      refine h.head other first hfirst n hbehind ?_
      exact List.map_subset Ticket.number hsub hmem

end Orderly

end Lanes

end FieldTelemetry.Store
