import FieldTelemetry.Store.Backend
import FieldTelemetry.Store.Snapshot

/-!
# Reconciliation

An update is merged into the stored snapshot of an entity in cycles. Each cycle reads the snapshot,
writes it with the update merged in, and reads it again to see that a snapshot was written. The
first cycle in which all three succeed ends the call, and it fails when the cycles are used up.
Others may read and write between the steps of a cycle.

## Main definitions

* `Call`: an update to be merged
* `Phase`: how far a call has come
* `Call.step`: the next step of a call
* `Call.run`: all steps of a call
* `load`, `scan`: the stored snapshot of an entity, and all entities that have one
-/

namespace FieldTelemetry.Store

open Time (Instant)

/-- How updates are merged. -/
structure Policy where
  /-- The longest delay before a call, in milliseconds. -/
  jitter : Nat := 250
  /-- The delay between writing and reading again, in milliseconds. -/
  verifyDelay : Nat := 50
  /-- The number of cycles. -/
  attempts : Nat := 8
deriving DecidableEq, Repr

/-- An update to be merged into the snapshot of an entity. -/
structure Call (α : Type) where
  /-- The kind of the entity. -/
  kind : EntityKind α
  /-- The entity. -/
  id : String
  /-- The update. -/
  update : α
  /-- Where the update came from. -/
  origin : Option Origin := none
  /-- The number of cycles. -/
  attempts : Nat

/-- How far a call has come. -/
inductive Phase (α : Type)
  /-- The next cycle is to begin, with so many more after it. -/
  | reading (more : Nat)
  /-- A snapshot is to be written. -/
  | writing (more : Nat) (snapshot : Snapshot α)
  /-- A snapshot was written and is to be read again. -/
  | verifying (more : Nat) (snapshot : Snapshot α)
  /-- The call has ended. -/
  | done (result : Except StoreError (Snapshot α))

namespace Call

variable {α : Type} [Mergeable α]

/-- The error of a call without a successful cycle. -/
def unconverged (call : Call α) : StoreError := .unconverged call.kind.name call.id call.attempts

/-- The phase at the begin of a cycle, with so many cycles left. -/
def begin (call : Call α) : (left : Nat) → Phase α
  | 0 => .done (.error call.unconverged)
  | more + 1 => .reading more

/-- The phase at the begin of a call. -/
def start (call : Call α) : Phase α :=
  if EntityId.Valid call.id then call.begin call.attempts
  else .done (.error (.invalidId call.id))

/-- The snapshot that a text holds, or the empty one. -/
def stored (text : Option Octets) : Snapshot α := (text.bind Snapshot.ofOctets?).getD .empty

/-- The snapshot that a cycle writes when it has read a text. -/
def merged (call : Call α) (text : Option Octets) (now : Instant) : Snapshot α :=
  let update := call.kind.prepare call.update
  let snapshot := ((stored text).merge call.id update call.kind.tracked now).1
  { snapshot with origin := call.origin.or snapshot.origin }

/-- What is read after writing shows that a snapshot was written. -/
def verified (α : Type) [Mergeable α] (answer : Except StoreError (Option Octets)) : Bool :=
  match answer with
  | .ok (some octets) => (Snapshot.ofOctets? (α := α) octets).isSome
  | _ => false

/-! ## Steps -/

variable {σ : Type} [Backend σ]

/-- One step of a call: an operation on the backend and the phase that its answer leads to. -/
def step (call : Call α) (now : Instant) : Phase α → σ → Phase α × σ
  | .reading more, state =>
    match Backend.read state call.kind.name call.id with
    -- A cycle that cannot read must not write: it would start from nothing.
    | (.error _, state) => (call.begin more, state)
    | (.ok text, state) => (.writing more (call.merged text now), state)
  | .writing more snapshot, state =>
    match Backend.write state call.kind.name call.id snapshot.render now with
    | (.error _, state) => (call.begin more, state)
    | (.ok _, state) => (.verifying more snapshot, state)
  | .verifying more snapshot, state =>
    match Backend.read state call.kind.name call.id with
    | (answer, state) =>
      -- Another collector may have written since. Any snapshot will do.
      (if verified α answer then .done (.ok snapshot) else call.begin more, state)
  | .done result, state => (.done result, state)

end Call

/-- A bound for the number of steps that a call has left. -/
def Phase.left {α : Type} : Phase α → Nat
  | .reading more => 3 * more + 3
  | .writing more _ => 3 * more + 2
  | .verifying more _ => 3 * more + 1
  | .done _ => 0

@[simp]
theorem Phase.left_reading {α : Type} (more : Nat) :
    (Phase.reading more : Phase α).left = 3 * more + 3 := rfl

@[simp]
theorem Phase.left_writing {α : Type} (more : Nat) (snapshot : Snapshot α) :
    (Phase.writing more snapshot).left = 3 * more + 2 := rfl

@[simp]
theorem Phase.left_verifying {α : Type} (more : Nat) (snapshot : Snapshot α) :
    (Phase.verifying more snapshot).left = 3 * more + 1 := rfl

@[simp]
theorem Phase.left_done {α : Type} (result : Except StoreError (Snapshot α)) :
    (Phase.done result).left = 0 := rfl

/-- The call has ended. -/
def Phase.isDone {α : Type} : Phase α → Bool
  | .done _ => true
  | _ => false

namespace Call

variable {α : Type} [Mergeable α] {σ : Type} [Backend σ]

omit [Mergeable α] in
theorem left_begin_le (call : Call α) (left : Nat) : (call.begin left).left ≤ 3 * left := by
  cases left <;> simp [begin]; omega

/-- Every step of a call that has not ended brings it nearer to its end. -/
theorem left_step_lt (call : Call α) (now : Instant) (phase : Phase α) (state : σ)
    (h : phase.isDone = false) : (call.step now phase state).1.left < phase.left := by
  cases phase with
  | reading more =>
    rw [step]
    split
    · exact Nat.lt_of_le_of_lt (call.left_begin_le more) (Nat.lt_add_of_pos_right (by decide))
    · exact Nat.lt_succ_self _
  | writing more snapshot =>
    rw [step]
    split
    · exact Nat.lt_of_le_of_lt (call.left_begin_le more) (Nat.lt_add_of_pos_right (by decide))
    · exact Nat.lt_succ_self _
  | verifying more snapshot =>
    rw [step]
    dsimp only
    split
    · exact Nat.succ_pos _
    · exact Nat.lt_of_le_of_lt (call.left_begin_le more) (Nat.lt_succ_self _)
  | done result => cases h

/-- All steps of a call from a phase on, with nobody else at work. -/
def finish (call : Call α) (now : Instant) (phase : Phase α) (state : σ) :
    Except StoreError (Snapshot α) × σ :=
  match phase with
  | .done result => (result, state)
  | .reading more =>
    have := call.left_step_lt now (.reading more) state rfl
    let next := call.step now (.reading more) state
    call.finish now next.1 next.2
  | .writing more snapshot =>
    have := call.left_step_lt now (.writing more snapshot) state rfl
    let next := call.step now (.writing more snapshot) state
    call.finish now next.1 next.2
  | .verifying more snapshot =>
    have := call.left_step_lt now (.verifying more snapshot) state rfl
    let next := call.step now (.verifying more snapshot) state
    call.finish now next.1 next.2
termination_by phase.left
decreasing_by all_goals exact this

/-- All steps of a call, with nobody else at work. -/
def run (call : Call α) (now : Instant) (state : σ) : Except StoreError (Snapshot α) × σ :=
  call.finish now call.start state

end Call

/-! ## Reading -/

variable {α : Type} [Mergeable α] {σ : Type} [Backend σ]

/-- The stored snapshot of an entity, which is empty when nothing or no snapshot is stored. -/
def load (kind : EntityKind α) (id : String) (state : σ) : Except StoreError (Snapshot α) × σ :=
  match Backend.read state kind.name id with
  | (.error error, state) => (.error error, state)
  | (.ok text, state) => (.ok (Call.stored text), state)

/-- The entities of a kind that have a snapshot. -/
def scan (kind : EntityKind α) (state : σ) : Except StoreError (List Listing) × σ :=
  Backend.list state kind.name

end FieldTelemetry.Store
