import FieldTelemetry.Proofs.Store.Cancellation
import Mathlib.Data.List.Perm.Subperm

/-!
# Lanes that are forgotten

The table of tails names the ticket taken last for an entity until this ticket is dropped, whatever
becomes of the others and in whatever order. So no entry outlives its ticket, and there are never
more entries than tickets that have not been dropped, however many entities were seen in the past.
What has been taken and dropped is read off the acts alone, not off the lanes.

A ticket that is dropped out of turn may leave tickets behind that were taken before it, and their
lane is forgotten with it. As long as this does not happen, a lane is forgotten exactly when it is
idle.

## Main definitions

* `Turnstile.Took`: a ticket was taken, and what was done since
* `Turnstile.Tidy`: what the table of tails holds after acts

## Main results

* `Turnstile.mem_tickets_run_iff`, `Turnstile.Took.mem_held_iff`: the tickets that have been taken,
  and those of them that are held
* `Turnstile.mem_getLast?_run_iff`: the ticket taken last for an entity
* `Turnstile.get?_tails_run_iff`: the entries of the table
* `Turnstile.tidy_run`: all that is known of the table after any acts
-/

namespace FieldTelemetry.Store

namespace Turnstile

variable {s : Turnstile} {acts since later : List Act} {ticket : Ticket}

/-! ## Tickets in a history -/

/-- A ticket was taken by one of the acts, and these acts came after that one. -/
def Took (acts : List Act) (ticket : Ticket) (since : List Act) : Prop :=
  ∃ before, acts = before ++ .take ticket.id :: since
    ∧ ticket = ((({} : Turnstile).run before).lanes.take ticket.id).1

theorem not_took_nil (ticket : Ticket) (since : List Act) : ¬ Took [] ticket since := by
  rintro ⟨before, hacts, -⟩
  simp at hacts

/-- A ticket was taken by the last act, or before it. -/
theorem took_concat_iff {last : Act} : Took (acts ++ [last]) ticket since
    ↔ since = [] ∧ last = .take ticket.id
        ∧ ticket = ((({} : Turnstile).run acts).lanes.take ticket.id).1
      ∨ ∃ earlier, since = earlier ++ [last] ∧ Took acts ticket earlier := by
  constructor
  · rintro ⟨before, hacts, hticket⟩
    -- The history ends with the act that takes the ticket, or with the last one done since.
    rcases List.eq_nil_or_concat' since with rfl | ⟨earlier, act, rfl⟩
    · obtain ⟨rfl, hlast⟩ := List.append_inj' hacts rfl
      exact .inl ⟨rfl, List.singleton_inj.mp hlast, hticket⟩
    · rw [← List.cons_append, ← List.append_assoc] at hacts
      obtain ⟨rfl, hlast⟩ := List.append_inj' hacts rfl
      cases List.singleton_inj.mp hlast
      exact .inr ⟨earlier, rfl, before, rfl, hticket⟩
  · rintro (⟨rfl, rfl, hticket⟩ | ⟨earlier, rfl, before, rfl, hticket⟩)
    · exact ⟨acts, rfl, hticket⟩
    · exact ⟨before, by rw [List.append_assoc, List.cons_append], hticket⟩

/-! ## What an act does to tickets -/

/-- Who looks whether he may pass is written down, and all else stays. -/
theorem act_wait (s : Turnstile) (number : Nat) :
    ∃ passed, s.act (.wait number) = { s with passed } := by
  rw [act]
  split
  · exact ⟨s.passed, rfl⟩
  · split <;> exact ⟨_, rfl⟩

@[simp]
theorem tickets_wait (s : Turnstile) (number : Nat) :
    (s.act (.wait number)).tickets = s.tickets := by
  obtain ⟨passed, hact⟩ := s.act_wait number
  rw [hact]

@[simp]
theorem lanes_wait (s : Turnstile) (number : Nat) : (s.act (.wait number)).lanes = s.lanes := by
  obtain ⟨passed, hact⟩ := s.act_wait number
  rw [hact]

@[simp]
theorem tickets_drop (s : Turnstile) (number : Nat) :
    (s.act (.drop number)).tickets = s.tickets := by
  rw [act]
  split <;> rfl

theorem mem_tickets_act_iff {act : Act} : ticket ∈ (s.act act).tickets
    ↔ ticket ∈ s.tickets ∨ act = .take ticket.id ∧ ticket = (s.lanes.take ticket.id).1 := by
  cases act with
  | take id =>
    refine List.mem_append.trans (or_congr_right ?_)
    rw [List.mem_singleton]
    constructor
    · rintro rfl
      exact ⟨rfl, rfl⟩
    · rintro ⟨hact, hticket⟩
      cases hact
      exact hticket
  | wait number => simp
  | drop number => simp

/-- Only who takes a ticket for an entity adds to its tickets. -/
theorem ofId_act_of_ne {id : String} {act : Act} (h : act ≠ .take id) :
    ofId id (s.act act).tickets = ofId id s.tickets := by
  cases act with
  | take other => exact s.ofId_take_of_ne fun heq => h (heq ▸ rfl)
  | wait number => rw [tickets_wait]
  | drop number => rw [tickets_drop]

/-- Only who drops a ticket ends its being held. -/
theorem Linked.mem_held_act_iff (h : s.Linked) (hmem : ticket ∈ s.tickets) (act : Act) :
    ticket.number ∈ (s.act act).lanes.held
      ↔ ticket.number ∈ s.lanes.held ∧ act ≠ .drop ticket.number := by
  cases act with
  | take id => simp [h.mem_held_take id hmem]
  | wait number => simp
  | drop number =>
    rw [Turnstile.act]
    split
    · -- The number is that of no held ticket, so it is not this one if this one is held.
      rename_i hnone
      refine ⟨fun hheld => ⟨hheld, ?_⟩, And.left⟩
      rintro ⟨rfl⟩
      rw [held?, List.find?_eq_none] at hnone
      exact hnone ticket hmem (decide_eq_true ⟨rfl, hheld⟩)
    · rename_i dropped hfound
      obtain ⟨-, rfl, -⟩ := mem_of_held? hfound
      simp [mem_held_giveBack, eq_comm]

/-! ## What a history says of tickets -/

/-- The tickets are those that were taken. -/
theorem mem_tickets_run_iff :
    ticket ∈ (({} : Turnstile).run acts).tickets ↔ ∃ since, Took acts ticket since := by
  induction acts using List.reverseRecOn with
  | nil =>
    refine iff_of_false List.not_mem_nil ?_
    rintro ⟨since, htook⟩
    exact not_took_nil ticket since htook
  | append_singleton acts last ih =>
    rw [run_concat, mem_tickets_act_iff, ih]
    simp only [took_concat_iff]
    constructor
    · rintro (⟨since, htook⟩ | hnow)
      · exact ⟨since ++ [last], .inr ⟨since, rfl, htook⟩⟩
      · exact ⟨[], .inl ⟨rfl, hnow⟩⟩
    · rintro ⟨since, ⟨-, hnow⟩ | ⟨earlier, -, htook⟩⟩
      · exact .inr hnow
      · exact .inl ⟨earlier, htook⟩

namespace Took

/-- A ticket that was taken is held until it is dropped. -/
theorem mem_held_iff (h : Took acts ticket since) :
    ticket.number ∈ (({} : Turnstile).run acts).lanes.held ↔ .drop ticket.number ∉ since := by
  induction acts using List.reverseRecOn generalizing since with
  | nil => exact absurd h (not_took_nil ticket since)
  | append_singleton acts last ih =>
    rw [run_concat]
    rcases took_concat_iff.mp h with ⟨rfl, rfl, hticket⟩ | ⟨earlier, rfl, htook⟩
    · -- It is taken now, and nothing was done since.
      have hheld := (({} : Turnstile).run acts).mem_held_new ticket.id
      rw [← hticket] at hheld
      exact iff_of_true hheld List.not_mem_nil
    · have hmem := mem_tickets_run_iff.mpr ⟨earlier, htook⟩
      rw [(linked_run acts).mem_held_act_iff hmem, ih htook, List.mem_append, List.mem_singleton,
        not_or, ne_comm]

/-- The next ticket has a number of its own. -/
theorem number_ne_next {next : Ticket} (h : Took acts ticket since)
    (hnext : next = ((({} : Turnstile).run acts).lanes.take next.id).1) :
    ticket.number ≠ next.number := by
  have hle := (linked_run acts).number_le (mem_tickets_run_iff.mpr ⟨since, h⟩)
  have hnumber : next.number = (({} : Turnstile).run acts).lanes.taken + 1 :=
    congrArg Ticket.number hnext
  omega

/-- Tickets that were taken at different times have different numbers. -/
theorem since_inj {a b : Ticket} (ha : Took acts a since) (hb : Took acts b later)
    (hnumber : a.number = b.number) : since = later := by
  induction acts using List.reverseRecOn generalizing since later with
  | nil => exact absurd ha (not_took_nil a since)
  | append_singleton acts last ih =>
    rcases took_concat_iff.mp ha with ⟨rfl, -, hnextA⟩ | ⟨beforeA, rfl, htookA⟩ <;>
      rcases took_concat_iff.mp hb with ⟨rfl, -, hnextB⟩ | ⟨beforeB, rfl, htookB⟩
    · rfl
    · exact absurd hnumber.symm (htookB.number_ne_next hnextA)
    · exact absurd hnumber (htookA.number_ne_next hnextB)
    · rw [ih htookA htookB]

end Took

/-- The newest ticket of an entity is the one that no other was taken after. -/
theorem mem_getLast?_run_iff {id : String} :
    ticket ∈ (ofId id (({} : Turnstile).run acts).tickets).getLast?
      ↔ ticket.id = id ∧ ∃ since, Took acts ticket since ∧ .take id ∉ since := by
  induction acts using List.reverseRecOn with
  | nil =>
    refine iff_of_false (by simp [run, ofId]) ?_
    rintro ⟨-, since, htook, -⟩
    exact not_took_nil ticket since htook
  | append_singleton acts last ih =>
    rw [run_concat]
    by_cases hlast : last = .take id
    · -- Any ticket that was there before is not the newest one any more.
      subst hlast
      rw [ofId_take_self, List.getLast?_concat]
      constructor
      · rintro ⟨⟩
        exact ⟨rfl, [], took_concat_iff.mpr (.inl ⟨rfl, rfl, rfl⟩), List.not_mem_nil⟩
      · rintro ⟨rfl, since, htook, hnewest⟩
        rcases took_concat_iff.mp htook with ⟨-, -, hticket⟩ | ⟨earlier, rfl, -⟩
        · exact congrArg some hticket.symm
        · exact absurd List.mem_concat_self hnewest
    · rw [ofId_act_of_ne hlast, ih]
      refine and_congr_right fun hid => ?_
      constructor
      · rintro ⟨since, htook, hnewest⟩
        refine ⟨since ++ [last], took_concat_iff.mpr (.inr ⟨since, rfl, htook⟩), ?_⟩
        rw [List.mem_append, List.mem_singleton, not_or]
        exact ⟨hnewest, Ne.symm hlast⟩
      · rintro ⟨since, htook, hnewest⟩
        rcases took_concat_iff.mp htook with ⟨-, hnow, -⟩ | ⟨earlier, rfl, hearlier⟩
        · exact absurd (hid ▸ hnow) hlast
        · exact ⟨earlier, hearlier, fun hmem => hnewest (List.mem_append_left _ hmem)⟩

/-! ## The table of tails -/

/-- An entry names the ticket taken last for its entity, which has not been dropped. -/
theorem get?_tails_run_iff {id : String} {number : Nat} :
    (({} : Turnstile).run acts).lanes.tails.get? id = some number
      ↔ ∃ ticket since, Took acts ticket since ∧ ticket.id = id ∧ ticket.number = number
        ∧ .take id ∉ since ∧ .drop number ∉ since := by
  rw [(linked_run acts).tail id, Option.map_eq_some_iff]
  constructor
  · rintro ⟨ticket, hticket, rfl⟩
    rw [Option.filter_eq_some_iff, decide_eq_true_iff] at hticket
    obtain ⟨hlast, hheld⟩ := hticket
    obtain ⟨hid, since, htook, hnewest⟩ := mem_getLast?_run_iff.mp hlast
    exact ⟨ticket, since, htook, hid, rfl, hnewest, htook.mem_held_iff.mp hheld⟩
  · rintro ⟨ticket, since, htook, hid, rfl, hnewest, hkept⟩
    refine ⟨ticket, ?_, rfl⟩
    rw [Option.filter_eq_some_iff, decide_eq_true_iff]
    exact ⟨mem_getLast?_run_iff.mpr ⟨hid, since, htook, hnewest⟩, htook.mem_held_iff.mpr hkept⟩

/-- A list with all tickets that have not been dropped is as long as the table or longer. -/
theorem size_tails_run_le {kept : List Ticket}
    (h : ∀ ticket since, Took acts ticket since → .drop ticket.number ∉ since → ticket ∈ kept) :
    (({} : Turnstile).run acts).lanes.tails.size ≤ kept.length := by
  -- The table has every entity at most once, and only those of tickets in the list.
  have hsub : (({} : Turnstile).run acts).lanes.tails.keys ⊆ kept.map Ticket.id := by
    intro id hid
    obtain ⟨⟨id, number⟩, hentry, rfl⟩ := List.mem_map.mp hid
    obtain ⟨ticket, since, htook, hsame, rfl, -, hkept⟩ :=
      get?_tails_run_iff.mp (Table.mem_entries_iff.mp hentry)
    exact List.mem_map.mpr ⟨ticket, h ticket since htook hkept, hsame⟩
  have hle := (List.subperm_of_subset (Table.nodup _) hsub).length_le
  rwa [List.length_map, List.length_map] at hle

/-- As long as no ticket of an entity is dropped out of turn, all its tickets have been dropped when
the newest one has. -/
theorem Linked.not_mem_held_of_get?_tails (h : s.Linked) {id : String}
    (hturn : ∀ ticket ∈ ofId id s.tickets, ticket.number ∉ s.cancelled)
    (hnone : s.lanes.tails.get? id = none) (hmem : ticket ∈ ofId id s.tickets) :
    ticket.number ∉ s.lanes.held := by
  intro hheld
  have hlast : ∀ last ∈ (ofId id s.tickets).getLast?, last.number ∉ s.lanes.held := by
    intro last hlast
    rw [h.tail, Option.map_eq_none_iff, Option.mem_def.mp hlast, Option.filter_some] at hnone
    simpa using hnone
  obtain ⟨between, hbetween, -, hcancelled⟩ := exists_cancelled (h.chain id)
    (h.sorted.sublist List.filter_sublist) hlast hmem hheld
  exact hturn between hbetween hcancelled

/-- What the table of tails holds after acts. -/
structure Tidy (acts : List Act) (s : Turnstile) : Prop where
  /-- It has an entry for an entity exactly when the ticket taken last for it has not been dropped,
  and the entry is the number of this ticket. -/
  get?_eq_some_iff : ∀ id number, s.lanes.tails.get? id = some number
    ↔ ∃ ticket since, Took acts ticket since ∧ ticket.id = id ∧ ticket.number = number
      ∧ .take id ∉ since ∧ .drop number ∉ since
  /-- Tickets that were taken at different times have different numbers. -/
  since_inj : ∀ a b since later, Took acts a since → Took acts b later → a.number = b.number →
    since = later
  /-- The table is empty when all tickets have been dropped. -/
  empty : (∀ ticket since, Took acts ticket since → .drop ticket.number ∈ since) →
    s.lanes.tails.entries = []
  /-- It is never longer than a list of the tickets that have not been dropped. -/
  size_le : ∀ kept : List Ticket,
    (∀ ticket since, Took acts ticket since → .drop ticket.number ∉ since → ticket ∈ kept) →
      s.lanes.tails.size ≤ kept.length
  /-- As long as no ticket of an entity is dropped out of turn, it has no entry exactly when all its
  tickets have been dropped. -/
  idle : ∀ id, (∀ ticket ∈ ofId id s.tickets, ticket.number ∉ s.cancelled) →
    (s.lanes.tails.get? id = none
      ↔ ∀ ticket since, Took acts ticket since → ticket.id = id → .drop ticket.number ∈ since)

/-- Whatever is done with tickets, in any order, the table of tails stays tidy. -/
theorem tidy_run (acts : List Act) : Tidy acts (({} : Turnstile).run acts) where
  get?_eq_some_iff _ _ := get?_tails_run_iff
  since_inj _ _ _ _ ha hb := ha.since_inj hb
  empty hdropped := by
    have hle : (({} : Turnstile).run acts).lanes.tails.size ≤ ([] : List Ticket).length :=
      size_tails_run_le fun ticket since htook hkept => absurd (hdropped ticket since htook) hkept
    exact List.eq_nil_of_length_eq_zero (Nat.le_zero.mp hle)
  size_le _ := size_tails_run_le
  idle id hturn := by
    constructor
    · rintro hnone ticket since htook rfl
      have hmem := mem_tickets_run_iff.mpr ⟨since, htook⟩
      have hlane : ticket ∈ ofId ticket.id (({} : Turnstile).run acts).tickets :=
        List.mem_filter.mpr ⟨hmem, decide_eq_true rfl⟩
      have hdropped := (linked_run acts).not_mem_held_of_get?_tails hturn hnone hlane
      rwa [htook.mem_held_iff, not_not] at hdropped
    · intro hdropped
      rw [Option.eq_none_iff_forall_ne_some]
      intro number hentry
      obtain ⟨ticket, since, htook, hid, rfl, -, hkept⟩ := get?_tails_run_iff.mp hentry
      exact hkept (hdropped ticket since htook hid)

/-- The second of two tickets is dropped out of turn, and the lane is forgotten while the first one
is held. -/
example :
    let s := ({} : Turnstile).run [.take "100", .take "100", .drop 2]
    s.lanes.tails.size = 0 ∧ s.lanes.held = [1] ∧ s.cancelled = [2] := by
  decide

end Turnstile

end FieldTelemetry.Store
