import FieldTelemetry.Proofs.Store.Endings
import FieldTelemetry.Proofs.Store.Schedule
import FieldTelemetry.Proofs.Store.Writers

/-!
# Calls in line

Calls for entities take their tickets when they are made, in one line for every entity. They begin
when it is their turn, take their steps, and give their tickets back, and all of them do so at any
time and in any order. A ticket is given back in two steps: it is forgotten as the newest one of its
entity, and then it is not held any more.

## Main definitions

* `Visit`: a call in line, and how far it has come
* `Visit.next?`: its next step
* `Office`: the lines of all entities
* `Office.move`, `Office.run`: a call is made or takes a step, and several of them

## Main results

* `Visit.next_of_next?`: all that a step can be
* `Queued.steps_of_run?`: a call that takes all its steps with nobody else at work
* `Office.move_visit`: a call in line takes a step, or nothing happens
* `Office.map_call_lines_run`: the lines hold the calls that were made
-/

namespace FieldTelemetry.Store

open Time (Instant)

/-! ## Giving tickets back in two steps -/

namespace Lanes

/-- A ticket is not the newest one of its entity any more. -/
def forget (lanes : Lanes) (ticket : Ticket) : Lanes :=
  { lanes with
    tails :=
      if lanes.tails.get? ticket.id = some ticket.number then lanes.tails.erase ticket.id
      else lanes.tails }

/-- A ticket is not held any more. -/
def release (lanes : Lanes) (ticket : Ticket) : Lanes :=
  { lanes with held := lanes.held.filter (· ≠ ticket.number) }

/-- Giving a ticket back is to forget it and not to hold it any more. -/
theorem giveBack_eq (lanes : Lanes) (ticket : Ticket) :
    lanes.giveBack ticket = (lanes.forget ticket).release ticket := rfl

theorem get?_tails_forget (lanes : Lanes) (ticket : Ticket) (id : String) :
    (lanes.forget ticket).tails.get? id
      = if id = ticket.id ∧ lanes.tails.get? ticket.id = some ticket.number then none
        else lanes.tails.get? id :=
  lanes.get?_tails_giveBack ticket id

theorem mem_held_release {lanes : Lanes} {ticket : Ticket} {n : Nat} :
    n ∈ (lanes.release ticket).held ↔ n ∈ lanes.held ∧ n ≠ ticket.number := by
  rw [release, List.mem_filter, decide_eq_true_iff]

theorem mayPass_iff {lanes : Lanes} {ticket : Ticket} :
    lanes.mayPass ticket = true ↔ ∀ n, ticket.behind = some n → n ∉ lanes.held := by
  rw [mayPass]
  cases ticket.behind with
  | none => simp
  | some n => simp

end Lanes

/-! ## Visits -/

/-- How far a call in line has come. -/
inductive Stage (α : Type)
  /-- It waits for its turn. -/
  | waiting
  /-- It is at work. -/
  | working (phase : Phase α)
  /-- It has ended, and its ticket is forgotten. -/
  | leaving (result : Except StoreError (Snapshot α))
  /-- Its ticket is not held any more. -/
  | left (result : Except StoreError (Snapshot α))

/-- A call in line, and how far it has come. -/
structure Visit (α : Type) where
  /-- The call with its ticket. -/
  queued : Queued α
  /-- How far it has come. -/
  stage : Stage α := .waiting

namespace Stage

variable {α : Type}

/-- The call has had its turn. -/
def hasBegun : Stage α → Bool
  | .waiting => false
  | _ => true

/-- The call has ended. -/
def isGone : Stage α → Bool
  | .leaving _ | .left _ => true
  | _ => false

/-- The call has ended and its ticket is given back. -/
def hasLeft : Stage α → Bool
  | .left _ => true
  | _ => false

/-- The result of a call that has ended. -/
def result? : Stage α → Option (Except StoreError (Snapshot α))
  | .leaving result | .left result => some result
  | _ => none

theorem hasBegun_of_isGone {stage : Stage α} (h : stage.isGone = true) : stage.hasBegun = true := by
  cases stage <;> first | rfl | cases h

theorem isGone_of_hasLeft {stage : Stage α} (h : stage.hasLeft = true) : stage.isGone = true := by
  cases stage <;> first | rfl | cases h

end Stage

namespace Visit

variable {α : Type}

def ticket (visit : Visit α) : Ticket := visit.queued.ticket

def call (visit : Visit α) : Call α := visit.queued.call

def number (visit : Visit α) : Nat := visit.ticket.number

/-- A bound for the number of steps that a call in line has left. -/
def left (visit : Visit α) : Nat :=
  match visit.stage with
  | .waiting => 3 * visit.call.attempts + 3
  | .working phase => phase.left + 2
  | .leaving _ => 1
  | .left _ => 0

variable {σ : Type} [Mergeable α] [Backend σ]

/-- The next step of a call in line, if it can take one. -/
def next? (visit : Visit α) (lanes : Lanes) (now : Instant) (store : σ) :
    Option (Stage α × Lanes × σ) :=
  match visit.stage with
  | .waiting =>
    if lanes.mayPass visit.ticket then some (.working visit.call.start, lanes, store) else none
  | .working (.done result) => some (.leaving result, lanes.forget visit.ticket, store)
  | .working phase =>
    let (phase, store) := visit.call.step now phase store
    some (.working phase, lanes, store)
  | .leaving result => some (.left result, lanes.release visit.ticket, store)
  | .left _ => none

/-- All that a step of a call in line can be. -/
inductive Next (visit : Visit α) (lanes : Lanes) (now : Instant) (store : σ) :
    Stage α → Lanes → σ → Prop
  /-- It begins when its ticket lets it pass. -/
  | begins (hstage : visit.stage = .waiting) (hpass : lanes.mayPass visit.ticket = true) :
    Next visit lanes now store (.working visit.call.start) lanes store
  /-- It takes a step of its update. -/
  | works {phase : Phase α} (hstage : visit.stage = .working phase)
    (hphase : phase.isDone = false) :
    Next visit lanes now store (.working (visit.call.step now phase store).1) lanes
      (visit.call.step now phase store).2
  /-- It has its result, and its ticket is not the newest one any more. -/
  | ends {result : Except StoreError (Snapshot α)}
    (hstage : visit.stage = .working (.done result)) :
    Next visit lanes now store (.leaving result) (lanes.forget visit.ticket) store
  /-- Its ticket is not held any more. -/
  | leaves {result : Except StoreError (Snapshot α)} (hstage : visit.stage = .leaving result) :
    Next visit lanes now store (.left result) (lanes.release visit.ticket) store

variable {visit : Visit α} {lanes lanes' : Lanes} {now : Instant} {store store' : σ}
  {stage : Stage α}

theorem next_of_next? (h : visit.next? lanes now store = some (stage, lanes', store')) :
    visit.Next lanes now store stage lanes' store' := by
  rw [next?] at h
  split at h
  · rename_i hstage
    split at h
    · rename_i hpass
      cases h
      exact .begins hstage hpass
    · cases h
  · rename_i result hstage
    cases h
    exact .ends hstage
  · rename_i phase hdone hstage
    cases h
    refine .works hstage ?_
    cases phase with
    | done result => exact absurd rfl (hdone result)
    | _ => rfl
  · rename_i result hstage
    cases h
    exact .leaves hstage
  · cases h

/-- A call can take a step unless it waits for its turn or has left. -/
theorem exists_next? (hleft : visit.stage.hasLeft = false)
    (hpass : visit.stage = .waiting → lanes.mayPass visit.ticket = true) :
    ∃ stage lanes' store', visit.next? lanes now store = some (stage, lanes', (store' : σ)) := by
  rw [next?]
  split
  · rename_i hstage
    rw [if_pos (hpass hstage)]
    exact ⟨_, _, _, rfl⟩
  · exact ⟨_, _, _, rfl⟩
  · exact ⟨_, _, _, rfl⟩
  · exact ⟨_, _, _, rfl⟩
  · rename_i hstage
    rw [hstage] at hleft
    cases hleft

/-- Every step brings a call nearer to its end. -/
theorem Next.left_lt (h : visit.Next lanes now store stage lanes' store') :
    ({ visit with stage } : Visit α).left < visit.left := by
  cases h with
  | begins hstage hpass =>
    have hstart := visit.call.left_start_le
    simp only [left, hstage]
    exact Nat.lt_of_le_of_lt (Nat.add_le_add_right hstart 2) (Nat.lt_succ_self _)
  | works hstage hphase =>
    have hlt := visit.call.left_step_lt now _ store hphase
    simp only [left, hstage]
    omega
  | ends hstage => simp [left, hstage]
  | leaves hstage => simp [left, hstage]

/-- Other tickets are not affected by a step. -/
theorem Next.frame (h : visit.Next lanes now store stage lanes' store') :
    lanes'.taken = lanes.taken
      ∧ (∀ id, id ≠ visit.ticket.id → lanes'.tails.get? id = lanes.tails.get? id)
      ∧ ∀ n, n ≠ visit.number → (n ∈ lanes'.held ↔ n ∈ lanes.held) := by
  cases h with
  | begins hstage hpass => exact ⟨rfl, fun _ _ => rfl, fun _ _ => Iff.rfl⟩
  | works hstage hphase => exact ⟨rfl, fun _ _ => rfl, fun _ _ => Iff.rfl⟩
  | ends hstage =>
    refine ⟨rfl, fun id hid => ?_, fun _ _ => Iff.rfl⟩
    rw [Lanes.get?_tails_forget, if_neg fun hself => hid hself.1]
  | leaves hstage =>
    refine ⟨rfl, fun _ _ => rfl, fun n hne => ?_⟩
    rw [Lanes.mem_held_release]
    exact and_iff_left hne

/-- The store is left as it was, or as a step of the call leaves it. -/
theorem Next.store_eq (h : visit.Next lanes now store stage lanes' store') :
    store' = store ∨ ∃ phase, store' = (visit.call.step now phase store).2 := by
  cases h with
  | works hstage hphase => exact .inr ⟨_, rfl⟩
  | _ => exact .inl rfl

end Visit

/-! ### One call alone -/

section Alone

variable {α σ : Type} [Mergeable α] [Backend σ] {queued : Queued α} {lanes lanes' : Lanes}
  {now : Instant} {store store' : σ}

/-- One step of a call in line, from a stage to another one. -/
def Queued.Steps (queued : Queued α) (now : Instant) (a b : Stage α × Lanes × σ) : Prop :=
  ({ queued, stage := a.1 } : Visit α).next? a.2.1 now a.2.2 = some b

/-- A call at work ends as it does when nobody else is at work. -/
theorem Queued.steps_finish (queued : Queued α) (lanes : Lanes) (now : Instant) (phase : Phase α)
    (store : σ) : Relation.ReflTransGen (queued.Steps now) (.working phase, lanes, store)
      (.working (.done (queued.call.finish now phase store).1), lanes,
        (queued.call.finish now phase store).2) := by
  refine queued.call.finish_preserves now (P := fun phase' store' => Relation.ReflTransGen
    (queued.Steps now) (.working phase, lanes, store) (.working phase', lanes, store'))
    (fun phase' store' h => ?_) phase store .refl
  cases phase' with
  | done result => exact h
  | _ => exact h.tail rfl

/-- The steps of a call whose turn it is lead to its result when nobody else is at work. -/
theorem Queued.steps_of_run? {result : Except StoreError (Snapshot α)}
    (h : queued.run? lanes now store = some (result, lanes', store')) :
    Relation.ReflTransGen (queued.Steps now) (.waiting, lanes, store)
      (.left result, lanes', store') := by
  rw [run?] at h
  split at h
  · rename_i hpass
    cases h
    have hbegins : queued.Steps now (.waiting, lanes, store)
        (.working queued.call.start, lanes, store) := if_pos hpass
    have hworks := queued.steps_finish lanes now queued.call.start store
    have hends (result : Except StoreError (Snapshot α)) (store : σ) :
        queued.Steps now (.working (.done result), lanes, store)
          (.leaving result, lanes.forget queued.ticket, store) := rfl
    have hleaves (result : Except StoreError (Snapshot α)) (store : σ) :
        queued.Steps now (.leaving result, lanes.forget queued.ticket, store)
          (.left result, lanes.giveBack queued.ticket, store) := by
      rw [Lanes.giveBack_eq]
      rfl
    exact ((Relation.ReflTransGen.head hbegins hworks).tail (hends _ _)).tail (hleaves _ _)
  · cases h

end Alone

/-! ## Offices -/

/-- The lines of all entities in front of a store, each with the calls in the order in which they
were made. -/
structure Office (α σ : Type) where
  /-- The tickets that are held, and the newest one of every entity. -/
  lanes : Lanes := {}
  /-- The calls for every entity, in the order in which they were made. -/
  lines : String → List (Visit α) := fun _ => []
  /-- What is stored, and for whom. -/
  store : σ

/-- What can happen in an office. -/
inductive Move (α : Type)
  /-- A call is made. -/
  | call (call : Call α)
  /-- A call takes a step, if it can. -/
  | visit (id : String) (position : Nat) (now : Instant)

/-- The calls that are made. -/
def made {α : Type} (moves : List (Move α)) : List (Call α) :=
  moves.filterMap fun
    | .call call => some call
    | .visit _ _ _ => none

namespace Office

variable {α σ : Type}

/-- Another line for an entity. -/
def withLine (office : Office α σ) (id : String) (line : List (Visit α)) (lanes : Lanes)
    (store : σ) : Office α σ :=
  ⟨lanes, Function.update office.lines id line, store⟩

theorem lines_withLine_self (office : Office α σ) (id : String) (line : List (Visit α))
    (lanes : Lanes) (store : σ) : (office.withLine id line lanes store).lines id = line :=
  Function.update_self ..

theorem lines_withLine_of_ne {id other : String} (h : other ≠ id) (office : Office α σ)
    (line : List (Visit α)) (lanes : Lanes) (store : σ) :
    (office.withLine id line lanes store).lines other = office.lines other :=
  Function.update_of_ne h ..

/-- A call takes its ticket and stands in line. -/
def receive (office : Office α σ) (call : Call α) : Office α σ :=
  let (queued, lanes) := call.queue office.lanes
  office.withLine call.id (office.lines call.id ++ [{ queued }]) lanes office.store

section Moves

variable [Mergeable α] [Backend σ]

/-- What happens next. -/
def move (office : Office α σ) : Move α → Office α σ
  | .call call => office.receive call
  | .visit id position now =>
    match (office.lines id)[position]? with
    | none => office
    | some visit =>
      match visit.next? office.lanes now office.store with
      | none => office
      | some (stage, lanes, store) =>
        let line := (office.lines id).set position { visit with stage }
        office.withLine id line lanes store

/-- What happens, one after the other. -/
def run (office : Office α σ) (moves : List (Move α)) : Office α σ := moves.foldl move office

theorem run_concat (office : Office α σ) (moves : List (Move α)) (next : Move α) :
    office.run (moves ++ [next]) = (office.run moves).move next := by
  rw [run, List.foldl_append]
  rfl

/-- All that can happen in an office. -/
inductive Moved (s : Office α σ) : Office α σ → Prop
  /-- A call cannot take a step. -/
  | nothing : Moved s s
  /-- A call is made. -/
  | called (call : Call α) : Moved s (s.receive call)
  /-- A call in line takes its next step. -/
  | visited {id : String} {front back : List (Visit α)} {visit : Visit α} {now : Instant}
    {stage : Stage α} {lanes : Lanes} {store : σ} (hline : s.lines id = front ++ visit :: back)
    (hnext : visit.Next s.lanes now s.store stage lanes store) :
    Moved s (s.withLine id (front ++ { visit with stage } :: back) lanes store)

/-- A call in line takes a step, or nothing happens. -/
theorem move_visit (s : Office α σ) (id : String) (position : Nat) (now : Instant) :
    s.move (.visit id position now) = s
      ∨ ∃ front visit back stage lanes store, s.lines id = front ++ visit :: back
        ∧ visit.Next s.lanes now s.store stage lanes store
        ∧ s.move (.visit id position now)
          = s.withLine id (front ++ { visit with stage } :: back) lanes store := by
  rw [move]
  split
  · exact .inl rfl
  · rename_i visit hvisit
    split
    · exact .inl rfl
    · rename_i stage lanes store hnext
      obtain ⟨hlt, rfl⟩ := List.getElem?_eq_some_iff.mp hvisit
      refine .inr ⟨(s.lines id).take position, _, (s.lines id).drop (position + 1), stage, lanes,
        store, ?_, Visit.next_of_next? hnext, ?_⟩
      · rw [List.getElem_cons_drop, List.take_append_drop]
      · dsimp only
        rw [List.set_eq_take_append_cons_drop, if_pos hlt]

theorem moved (s : Office α σ) (move : Move α) : s.Moved (s.move move) := by
  cases move with
  | call call => exact .called call
  | visit id position now =>
    rcases s.move_visit id position now with hnothing | ⟨_, _, _, _, _, _, hline, hnext, hmove⟩
    · rw [hnothing]
      exact .nothing
    · rw [hmove]
      exact .visited hline hnext

/-- The lines hold the calls that were made, in their order. -/
theorem map_call_lines_run (store : σ) (moves : List (Move α)) (id : String) :
    ((({ store } : Office α σ).run moves).lines id).map Visit.call = callsOf id (made moves) := by
  induction moves using List.reverseRecOn with
  | nil => rfl
  | append_singleton moves next ih =>
    rw [run_concat, made, List.filterMap_append, ← made, callsOf_append]
    generalize ({ store } : Office α σ).run moves = office at ih ⊢
    cases next with
    | call call =>
      rw [move, receive]
      by_cases hid : id = call.id
      · subst hid
        rw [lines_withLine_self, List.map_append, ih]
        exact congrArg _ ((callsOf_singleton ..).trans (if_pos rfl)).symm
      · rw [lines_withLine_of_ne hid, ih]
        exact ((congrArg _ ((callsOf_singleton ..).trans (if_neg (Ne.symm hid)))).trans
          (List.append_nil _)).symm
    | visit other position now =>
      refine Eq.trans ?_ (List.append_nil _).symm
      rw [← ih]
      rcases office.move_visit other position now with
        hnothing | ⟨front, visit, back, stage, lanes, store, hline, -, hmove⟩
      · rw [hnothing]
      · rw [hmove]
        by_cases hid : id = other
        · subst hid
          rw [lines_withLine_self, hline, List.map_append, List.map_append]
          rfl
        · rw [lines_withLine_of_ne hid]

end Moves

end Office

end FieldTelemetry.Store
