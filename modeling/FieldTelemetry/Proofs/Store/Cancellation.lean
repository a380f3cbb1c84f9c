import FieldTelemetry.Proofs.Store.Lanes
import Mathlib.Data.List.Induction

/-!
# Tickets that are given up

A ticket may be dropped at any time: after its holder has passed, while he waits, or before he ever
waited. A wait ends when the ticket taken last before it for the same entity has been dropped. This
is the turn of its holder as long as nobody drops a ticket out of turn. Whoever does lets the next
one pass although tickets further ahead are still held.

## Main definitions

* `Turnstile`: the lanes with all tickets that have been taken
* `Turnstile.act`, `Turnstile.run`: taking tickets, waiting and dropping tickets in any order
* `Turnstile.Follows`, `Turnstile.Linked`: what a ticket knows of the one before it
* `Turnstile.Admits`: who passes, and beside whom

## Main results

* `Turnstile.Linked.act`, `Turnstile.linked_run`: acts leave the tickets linked
* `Turnstile.Linked.mayPass_iff`: a wait ends when the ticket before has been dropped
* `Turnstile.exists_cancelled`: who passes beside a holder has a ticket before his that was dropped
  out of turn
* `Turnstile.admits_run`: who passes after any acts
* `company_of_dropped`: two holders at once
-/

namespace FieldTelemetry.Store

/-- The lanes with the tickets that have been taken. What has happened is written down beside them,
and no act depends on it. -/
structure Turnstile where
  /-- The lanes. -/
  lanes : Lanes := {}
  /-- The tickets that have been taken, the latest last. -/
  tickets : List Ticket := []
  /-- The tickets whose wait has ended, each with those that were taken before it for the same
  entity and were still held then. -/
  passed : List (Ticket × List Ticket) := []
  /-- The numbers of the tickets that were dropped out of turn. -/
  cancelled : List Nat := []

namespace Turnstile

/-- What is done with tickets. -/
inductive Act
  /-- Somebody takes a ticket for an entity. -/
  | take (id : String)
  /-- The holder of a ticket looks whether he may pass. -/
  | wait (number : Nat)
  /-- A ticket is dropped, whether its holder has passed or not. -/
  | drop (number : Nat)

/-- The ticket of a number, while it is held. -/
def held? (s : Turnstile) (number : Nat) : Option Ticket :=
  s.tickets.find? fun ticket => ticket.number = number ∧ number ∈ s.lanes.held

/-- The tickets taken before a ticket for the same entity that are held. -/
def ahead (s : Turnstile) (ticket : Ticket) : List Ticket :=
  (ofId ticket.id s.tickets).filter fun other =>
    other.number < ticket.number ∧ other.number ∈ s.lanes.held

/-- The lanes after an act. Nothing is done with a ticket that is not held. -/
def act (s : Turnstile) : Act → Turnstile
  | .take id =>
    let (ticket, lanes) := s.lanes.take id
    { s with lanes, tickets := s.tickets ++ [ticket] }
  | .wait number =>
    match s.held? number with
    | none => s
    | some ticket =>
      if s.lanes.mayPass ticket then { s with passed := s.passed ++ [(ticket, s.ahead ticket)] }
      else s
  | .drop number =>
    match s.held? number with
    | none => s
    | some ticket =>
      { s with
        lanes := s.lanes.giveBack ticket
        cancelled := if s.lanes.mayPass ticket then s.cancelled else number :: s.cancelled }

/-- The lanes after several acts. -/
def run (s : Turnstile) (acts : List Act) : Turnstile := acts.foldl act s

theorem run_concat (s : Turnstile) (acts : List Act) (last : Act) :
    s.run (acts ++ [last]) = (s.run acts).act last := by
  rw [run, run, List.foldl_append]
  rfl

variable {s : Turnstile}

/-! ## The next ticket -/

theorem ofId_take_self (s : Turnstile) (id : String) :
    ofId id (s.act (.take id)).tickets = ofId id s.tickets ++ [(s.lanes.take id).1] :=
  ofId_concat_of_eq (s.lanes.id_take id) s.tickets

theorem ofId_take_of_ne (s : Turnstile) {id other : String} (h : other ≠ id) :
    ofId other (s.act (.take id)).tickets = ofId other s.tickets :=
  ofId_concat_of_ne (Ne.symm h) s.tickets

theorem mem_held_new (s : Turnstile) (id : String) :
    (s.lanes.take id).1.number ∈ (s.act (.take id)).lanes.held := List.mem_cons_self

/-! ## Links between tickets -/

/-- What a ticket `b` knows of the ticket `a` that was taken last before it for the same entity. -/
structure Follows (s : Turnstile) (a b : Ticket) : Prop where
  /-- It waits for it, unless it had been dropped by then. -/
  behind : b.behind = some a.number ∨ b.behind = none ∧ a.number ∉ s.lanes.held
  /-- It is not dropped in turn as long as the other one is held. -/
  turn : b.number ∉ s.lanes.held → b.number ∉ s.cancelled → a.number ∉ s.lanes.held

/-- The tickets are numbered and linked in the order in which they were taken. -/
structure Linked (s : Turnstile) : Prop where
  /-- They have the numbers from one on. -/
  numbers : s.tickets.map Ticket.number = List.range' 1 s.lanes.taken
  /-- The newest ticket of an entity stands in the table of tails as long as it is held. -/
  tail : ∀ id, s.lanes.tails.get? id = ((ofId id s.tickets).getLast?.filter fun last =>
    last.number ∈ s.lanes.held).map Ticket.number
  /-- The first ticket of an entity waits for none. -/
  head : ∀ id, ∀ first ∈ (ofId id s.tickets).head?, first.behind = none
  /-- Every other one waits for the one before it. -/
  chain : ∀ id, (ofId id s.tickets).IsChain s.Follows

theorem Follows.mayPass_iff {a b : Ticket} (h : s.Follows a b) :
    s.lanes.mayPass b = true ↔ a.number ∉ s.lanes.held := by
  rcases h.behind with hbehind | ⟨hbehind, hdropped⟩
  · simp [Lanes.mayPass, hbehind]
  · simp [Lanes.mayPass, hbehind, hdropped]

/-- A holder passes beside another one only when a ticket between theirs was dropped out of turn. -/
theorem exists_cancelled {front : List Ticket} {other : Ticket} (hchain : front.IsChain s.Follows)
    (hsorted : front.Pairwise fun a b => a.number < b.number)
    (hlast : ∀ last ∈ front.getLast?, last.number ∉ s.lanes.held) (hother : other ∈ front)
    (hheld : other.number ∈ s.lanes.held) :
    ∃ between ∈ front, other.number < between.number ∧ between.number ∈ s.cancelled := by
  induction front using List.reverseRecOn with
  | nil => cases hother
  | append_singleton front last ih =>
    have hdropped := hlast last List.getLast?_concat
    have hfront : other ∈ front := by
      rcases List.mem_append.mp hother with hfront | hself
      · exact hfront
      · rw [List.mem_singleton.mp hself] at hheld
        exact absurd hheld hdropped
    rw [List.pairwise_append] at hsorted
    obtain ⟨hsorted, -, hbelow⟩ := hsorted
    by_cases hcancelled : last.number ∈ s.cancelled
    · exact ⟨last, List.mem_concat_self, hbelow other hfront last List.mem_cons_self, hcancelled⟩
    · -- The last one was dropped in turn, so the one before it had been dropped by then.
      rw [List.isChain_append] at hchain
      obtain ⟨between, hmem, hrest⟩ := ih hchain.1 hsorted
        (fun previous hprevious =>
          (hchain.2.2 previous hprevious last rfl).turn hdropped hcancelled) hfront
      exact ⟨between, List.mem_append_left _ hmem, hrest⟩

namespace Linked

theorem sorted (h : s.Linked) : s.tickets.Pairwise fun a b => a.number < b.number := by
  have hsorted := List.pairwise_lt_range' (s := 1) (n := s.lanes.taken)
  rw [← h.numbers, List.pairwise_map] at hsorted
  exact hsorted

theorem number_le (h : s.Linked) {ticket : Ticket} (hmem : ticket ∈ s.tickets) :
    ticket.number ≤ s.lanes.taken := by
  have hnumber := List.mem_map_of_mem (f := Ticket.number) hmem
  rw [h.numbers, List.mem_range'_1] at hnumber
  omega

theorem number_inj (h : s.Linked) {a b : Ticket} (ha : a ∈ s.tickets) (hb : b ∈ s.tickets)
    (hnumber : a.number = b.number) : a = b := by
  have hnodup : (s.tickets.map Ticket.number).Nodup := by
    rw [h.numbers]
    exact List.nodup_range'
  exact List.inj_on_of_nodup_map hnodup ha hb hnumber

/-- A wait ends exactly when the ticket taken last before it for its entity has been dropped. -/
theorem mayPass_iff (h : s.Linked) {before after : List Ticket} {ticket : Ticket}
    (hsplit : s.tickets = before ++ ticket :: after) : s.lanes.mayPass ticket = true
      ↔ ∀ last ∈ (ofId ticket.id before).getLast?, last.number ∉ s.lanes.held := by
  have hlane : ofId ticket.id s.tickets
      = ofId ticket.id before ++ ticket :: ofId ticket.id after := by
    rw [hsplit, ofId_append, ofId_cons_of_eq rfl]
  rcases List.eq_nil_or_concat' (ofId ticket.id before) with hnil | ⟨front, last, hlast⟩
  · have hfirst := h.head ticket.id ticket (by rw [hlane, hnil]; rfl)
    simp [hnil, Lanes.mayPass, hfirst]
  · have hchain := h.chain ticket.id
    rw [hlane, hlast, List.append_assoc, List.singleton_append, List.isChain_append_cons_cons]
      at hchain
    rw [hlast, hchain.2.1.mayPass_iff, List.getLast?_concat]
    simp

/-- Who may pass beside a holder has a ticket before his that was dropped out of turn. -/
theorem exists_cancelled_of_mayPass (h : s.Linked) {ticket other : Ticket}
    (hmem : ticket ∈ s.tickets) (hpass : s.lanes.mayPass ticket = true)
    (hother : other ∈ s.ahead ticket) :
    ∃ between ∈ s.tickets, between.id = ticket.id ∧ other.number < between.number
      ∧ between.number < ticket.number ∧ between.number ∈ s.cancelled := by
  obtain ⟨before, after, hsplit⟩ := List.append_of_mem hmem
  have hsorted := h.sorted
  rw [hsplit, List.pairwise_append] at hsorted
  obtain ⟨hbefore, hafter, hacross⟩ := hsorted
  rw [ahead, List.mem_filter, decide_eq_true_iff] at hother
  obtain ⟨hlane, hbelow, hheld⟩ := hother
  -- The tickets are in the order of their numbers, so a smaller one was taken before.
  have hfront : other ∈ ofId ticket.id before := by
    rw [hsplit, ofId_append, ofId_cons_of_eq rfl, List.mem_append, List.mem_cons] at hlane
    rcases hlane with hfront | rfl | hbehind
    · exact hfront
    · exact absurd hbelow (Nat.lt_irrefl _)
    · have hover := (List.pairwise_cons.mp hafter).1 other (mem_of_mem_ofId hbehind)
      omega
  have hchain := h.chain ticket.id
  rw [hsplit, ofId_append] at hchain
  obtain ⟨between, hbetween, hover, hcancelled⟩ := exists_cancelled hchain.left_of_append
    (hbefore.sublist List.filter_sublist) ((h.mayPass_iff hsplit).mp hpass) hfront hheld
  have hin := mem_of_mem_ofId hbetween
  exact ⟨between, by rw [hsplit]; exact List.mem_append_left _ hin,
    id_of_mem_ofId hbetween, hover,
    hacross between hin ticket List.mem_cons_self, hcancelled⟩

/-! ### Acts -/

theorem empty : Linked {} where
  numbers := rfl
  tail _ := rfl
  head _ _ h := absurd h (by simp [ofId])
  chain _ := .nil

/-- The tickets so far are held as before when the next one is taken. -/
theorem mem_held_take (h : s.Linked) (id : String) {ticket : Ticket} (hmem : ticket ∈ s.tickets) :
    ticket.number ∈ (s.act (.take id)).lanes.held ↔ ticket.number ∈ s.lanes.held := by
  have hle := h.number_le hmem
  have hne : ticket.number ≠ s.lanes.taken + 1 := by omega
  exact List.mem_cons.trans (or_iff_right hne)

/-- The next ticket is the newest one of its entity, and it is held. -/
theorem tail_take (h : s.Linked) (id other : String) :
    (s.act (.take id)).lanes.tails.get? other
      = ((ofId other (s.act (.take id)).tickets).getLast?.filter fun last =>
        last.number ∈ (s.act (.take id)).lanes.held).map Ticket.number := by
  change (s.lanes.tails.insert id (s.lanes.taken + 1)).get? other = _
  rw [Table.get?_insert]
  split
  · rename_i heq
    rw [heq, ofId_take_self, List.getLast?_concat, Option.filter_some,
      if_pos (decide_eq_true (s.mem_held_new id))]
    rfl
  · rename_i hne
    rw [ofId_take_of_ne s hne, h.tail]
    cases hlast : (ofId other s.tickets).getLast? with
    | none => rfl
    | some last =>
      have hmem := mem_of_mem_ofId (List.mem_of_getLast? hlast)
      simp [Option.filter_some, h.mem_held_take id hmem]

/-- The next ticket waits for none when it is the first one of its entity. -/
theorem head_take (h : s.Linked) (id other : String) :
    ∀ first ∈ (ofId other (s.act (.take id)).tickets).head?, first.behind = none := by
  intro first hfirst
  by_cases heq : other = id
  · subst heq
    rw [ofId_take_self] at hfirst
    cases htickets : ofId other s.tickets with
    | nil =>
      rw [htickets] at hfirst
      cases hfirst
      have hnone := h.tail other
      rw [htickets] at hnone
      exact hnone
    | cons oldest rest =>
      rw [htickets] at hfirst
      exact h.head other first (by rw [htickets]; exact hfirst)
  · rw [ofId_take_of_ne s heq] at hfirst
    exact h.head other first hfirst

theorem chain_take_before (h : s.Linked) (id other : String) :
    (ofId other s.tickets).IsChain (s.act (.take id)).Follows := by
  refine (h.chain other).imp_of_mem_imp fun a b ha hb hfollows => ?_
  have ha' := h.mem_held_take id (mem_of_mem_ofId ha)
  have hb' := h.mem_held_take id (mem_of_mem_ofId hb)
  exact ⟨hfollows.behind.imp_right fun hdropped => ⟨hdropped.1, ha'.not.mpr hdropped.2⟩,
    fun hdropped hcancelled => ha'.not.mpr (hfollows.turn (hb'.not.mp hdropped) hcancelled)⟩

/-- The next ticket waits for the newest one of its entity, if that is held. -/
theorem chain_take (h : s.Linked) (id other : String) :
    (ofId other (s.act (.take id)).tickets).IsChain (s.act (.take id)).Follows := by
  by_cases heq : other = id
  · subst heq
    rw [ofId_take_self, List.isChain_append]
    refine ⟨h.chain_take_before other other, .singleton _, ?_⟩
    rintro last hlast _ ⟨⟩
    refine ⟨?_, fun hdropped => absurd (s.mem_held_new other) hdropped⟩
    have hmem := mem_of_mem_ofId (List.mem_of_getLast? hlast)
    -- The table of tails names the newest one only as long as it is held.
    have hbehind := h.tail other
    rw [Option.mem_def.mp hlast, Option.filter_some] at hbehind
    rw [h.mem_held_take other hmem]
    split at hbehind
    · exact .inl hbehind
    · rename_i hdropped
      exact .inr ⟨hbehind, by simpa using hdropped⟩
  · rw [ofId_take_of_ne s heq]
    exact h.chain_take_before id other

theorem take (h : s.Linked) (id : String) : (s.act (.take id)).Linked := by
  refine ⟨?_, h.tail_take id, h.head_take id, h.chain_take id⟩
  change (s.tickets ++ [(s.lanes.take id).1]).map Ticket.number = List.range' 1 (s.lanes.taken + 1)
  rw [List.map_append, h.numbers, List.range'_1_concat, Nat.add_comm 1]
  rfl

theorem mem_of_held? {number : Nat} {ticket : Ticket} (h : s.held? number = some ticket) :
    ticket ∈ s.tickets ∧ ticket.number = number ∧ number ∈ s.lanes.held := by
  rw [held?] at h
  have hfits := List.find?_some h
  rw [decide_eq_true_iff] at hfits
  exact ⟨List.mem_of_find?_eq_some h, hfits⟩

/-- A dropped ticket is not held any more, and all others are held as before. -/
theorem mem_held_giveBack (lanes : Lanes) (ticket : Ticket) (n : Nat) :
    n ∈ (lanes.giveBack ticket).held ↔ n ∈ lanes.held ∧ n ≠ ticket.number := by
  simp [Lanes.giveBack]

/-- The newest ticket of an entity may be the dropped one. -/
theorem tail_giveBack (h : s.Linked) {ticket : Ticket} (hmem : ticket ∈ s.tickets)
    (hheld : ticket.number ∈ s.lanes.held) (id : String) :
    (s.lanes.giveBack ticket).tails.get? id = ((ofId id s.tickets).getLast?.filter fun last =>
      last.number ∈ (s.lanes.giveBack ticket).held).map Ticket.number := by
  have htail := h.tail id
  rw [Lanes.get?_tails_giveBack]
  cases hlast : (ofId id s.tickets).getLast? with
  | none =>
    rw [hlast] at htail
    rw [htail]
    exact ite_self _
  | some last =>
    have hin := List.mem_of_getLast? hlast
    rw [hlast, Option.filter_some] at htail
    by_cases hself : last.number = ticket.number
    · have hsame := h.number_inj (mem_of_mem_ofId hin) hmem hself
      subst hsame
      rw [if_pos (decide_eq_true hheld)] at htail
      rw [id_of_mem_ofId hin, if_pos ⟨rfl, htail⟩]
      simp [Option.filter_some, mem_held_giveBack]
    · have hother : ¬ (id = ticket.id ∧ s.lanes.tails.get? ticket.id = some ticket.number) := by
        rintro ⟨rfl, hnewest⟩
        rw [htail] at hnewest
        split at hnewest
        · exact hself (Option.some.inj hnewest)
        · cases hnewest
      rw [if_neg hother, htail]
      simp [Option.filter_some, mem_held_giveBack, hself]

/-- A dropped ticket leaves the others linked. -/
theorem drop (h : s.Linked) (number : Nat) : (s.act (.drop number)).Linked := by
  rw [act]
  split
  · exact h
  · rename_i ticket hfound
    obtain ⟨hmem, rfl, hheld⟩ := mem_of_held? hfound
    refine ⟨h.numbers, h.tail_giveBack hmem hheld, h.head, fun id => ?_⟩
    refine (h.chain id).imp_of_mem_imp fun a b ha hb hfollows => ⟨?_, ?_⟩
    · simp only [mem_held_giveBack]
      exact hfollows.behind.imp_right fun hbehind => ⟨hbehind.1, fun hstill => hbehind.2 hstill.1⟩
    · simp only [mem_held_giveBack]
      intro hb' hturn hstill
      by_cases hself : b.number = ticket.number
      · -- This ticket is dropped now, and in turn.
        have hsame := h.number_inj (mem_of_mem_ofId hb) hmem hself
        subst hsame
        split at hturn
        · rename_i hpass
          exact hfollows.mayPass_iff.mp hpass hstill.1
        · exact hturn List.mem_cons_self
      · refine hfollows.turn (fun hheld' => hb' ⟨hheld', hself⟩) ?_ hstill.1
        split at hturn
        · exact hturn
        · exact fun hbefore => hturn (List.mem_cons_of_mem _ hbefore)

theorem act (h : s.Linked) (act : Act) : (s.act act).Linked := by
  cases act with
  | take id => exact h.take id
  | wait number =>
    rw [Turnstile.act]
    split
    · exact h
    · split
      · exact ⟨h.numbers, h.tail, h.head, fun id => (h.chain id).imp fun _ _ hfollows =>
          ⟨hfollows.behind, hfollows.turn⟩⟩
      · exact h
  | drop number => exact h.drop number

end Linked

theorem linked_run (acts : List Act) : (({} : Turnstile).run acts).Linked := by
  induction acts using List.reverseRecOn with
  | nil => exact .empty
  | append_singleton acts last ih =>
    rw [run_concat]
    exact ih.act last

/-! ## Who passes -/

/-- Whoever has passed beside others had a ticket before his that was dropped out of turn. -/
def Explained (s : Turnstile) : Prop :=
  ∀ ticket company, (ticket, company) ∈ s.passed → ∀ other ∈ company,
    ∃ between ∈ s.tickets, between.id = ticket.id ∧ other.number < between.number
      ∧ between.number < ticket.number ∧ between.number ∈ s.cancelled

theorem Explained.mono {t : Turnstile} (h : s.Explained) (hpassed : t.passed = s.passed)
    (htickets : s.tickets ⊆ t.tickets) (hcancelled : s.cancelled ⊆ t.cancelled) : t.Explained := by
  intro ticket company hmem other hother
  rw [hpassed] at hmem
  obtain ⟨between, hbetween, hid, hover, hunder, hdropped⟩ := h ticket company hmem other hother
  exact ⟨between, htickets hbetween, hid, hover, hunder, hcancelled hdropped⟩

theorem Explained.act (h : s.Explained) (hlinked : s.Linked) (act : Act) :
    (s.act act).Explained := by
  cases act with
  | take id => exact h.mono rfl (List.subset_append_left _ _) fun _ hmem => hmem
  | wait number =>
    rw [Turnstile.act]
    split
    · exact h
    · rename_i held hfound
      split
      · rename_i hpass
        intro ticket company hmem other hother
        rcases List.mem_append.mp hmem with hbefore | hnow
        · exact h ticket company hbefore other hother
        · cases List.mem_singleton.mp hnow
          exact hlinked.exists_cancelled_of_mayPass (Linked.mem_of_held? hfound).1 hpass hother
      · exact h
  | drop number =>
    rw [Turnstile.act]
    split
    · exact h
    · refine h.mono rfl (fun _ hmem => hmem) ?_
      dsimp only
      split
      · exact fun _ hmem => hmem
      · exact List.subset_cons_self _ _

theorem explained_run (acts : List Act) : (({} : Turnstile).run acts).Explained := by
  induction acts using List.reverseRecOn with
  | nil => exact fun _ _ hmem => absurd hmem List.not_mem_nil
  | append_singleton acts last ih =>
    rw [run_concat]
    exact ih.act (linked_run acts) last

/-- Who passes, and beside whom. -/
structure Admits (s : Turnstile) : Prop where
  /-- A wait ends exactly when the ticket taken last before it for the same entity, if any, has been
  dropped. -/
  mayPass_iff : ∀ before ticket after, s.tickets = before ++ ticket :: after →
    (s.lanes.mayPass ticket = true
      ↔ ∀ last ∈ (ofId ticket.id before).getLast?, last.number ∉ s.lanes.held)
  /-- Those further ahead may be held or not. But whoever passes beside another one has a ticket
  before his and behind the other one's that was dropped out of turn. -/
  explained : s.Explained
  /-- As long as no ticket of an entity is dropped out of turn, its holders pass alone. -/
  alone : ∀ id, (∀ ticket ∈ ofId id s.tickets, ticket.number ∉ s.cancelled) →
    ∀ ticket company, (ticket, company) ∈ s.passed → ticket.id = id → company = []

/-- Whatever is done with tickets, in any order, these holders pass. -/
theorem admits_run (acts : List Act) : (({} : Turnstile).run acts).Admits := by
  have hexplained := explained_run acts
  refine ⟨fun before ticket after hsplit => (linked_run acts).mayPass_iff hsplit, hexplained, ?_⟩
  rintro id hnone ticket company hmem rfl
  rw [List.eq_nil_iff_forall_not_mem]
  intro other hother
  obtain ⟨between, hbetween, hid, -, -, hcancelled⟩ := hexplained ticket company hmem other hother
  refine hnone between ?_ hcancelled
  rw [ofId, List.mem_filter]
  exact ⟨hbetween, decide_eq_true hid⟩

end Turnstile

/-- The second of two holders gives up his ticket, and the third one passes beside the first,
whether his ticket was taken before that or after. -/
theorem company_of_dropped :
    let after := ({} : Turnstile).run [.take "100", .take "100", .drop 2, .take "100", .wait 3]
    let before := ({} : Turnstile).run
      [.take "100", .take "100", .take "100", .wait 2, .drop 2, .wait 3]
    after.passed = [(⟨"100", 3, none⟩, [⟨"100", 1, none⟩])] ∧ after.lanes.held = [3, 1]
      ∧ before.passed = [(⟨"100", 3, some 2⟩, [⟨"100", 1, none⟩])]
      ∧ before.lanes.held = [3, 1] := by
  decide

end FieldTelemetry.Store
