import FieldTelemetry.Proofs.Store.ExactlyOnce

/-!
# The cycles of a call

A backend may answer the operations of a call in any way. The call goes through its cycles all the
same: it writes only what it has read in the same cycle, with its update merged in, and the first
cycle whose snapshot is verified ends it. A call that has used up its cycles fails.

## Main definitions

* `Operation`, `Watched`: an operation on a backend with its answer, and a backend with all of them
* `Attempt`: what a cycle of a call can come to
* `Call.operations`, `Call.success?`: the operations of a cycle, and its snapshot if it succeeds
* `Call.OnTime`, `Call.Ends`: the times of the cycles of a call, and its result
* `Call.advance`: some steps of a call, each at its own time

## Main results

* `Call.advance_begin`: what a call does from the begin of a cycle on
* `Call.attempts_of_any_backend`: what a call does, whatever the backend answers
-/

namespace FieldTelemetry.Store

open Time (Instant)

/-! ## Operations -/

/-- An operation on a backend, with its answer. -/
inductive Operation
  /-- The text of a snapshot was read. -/
  | read (kind id : String) (answer : Except StoreError (Option Octets))
  /-- Another text was written. -/
  | write (kind id : String) (octets : Octets) (answer : Except StoreError Unit)
  /-- The snapshots of a kind were listed. -/
  | list (kind : String) (answer : Except StoreError (List Listing))

/-- A backend with all operations on it so far. -/
structure Watched (σ : Type) where
  /-- The backend. -/
  store : σ
  /-- The operations, in their order. -/
  log : List Operation := []

section Watching

variable {σ : Type} [Backend σ]

instance : Backend (Watched σ) where
  read watched kind id :=
    let (answer, store) := Backend.read watched.store kind id
    (answer, ⟨store, watched.log ++ [.read kind id answer]⟩)
  write watched kind id octets now :=
    let (answer, store) := Backend.write watched.store kind id octets now
    (answer, ⟨store, watched.log ++ [.write kind id octets answer]⟩)
  list watched kind :=
    let (answer, store) := Backend.list watched.store kind
    (answer, ⟨store, watched.log ++ [.list kind answer]⟩)

theorem Watched.read_eq (watched : Watched σ) (kind id : String) :
    Backend.read watched kind id = ((Backend.read watched.store kind id).1,
      ⟨(Backend.read watched.store kind id).2,
        watched.log ++ [.read kind id (Backend.read watched.store kind id).1]⟩) := rfl

theorem Watched.write_eq (watched : Watched σ) (kind id : String) (octets : Octets)
    (now : Instant) :
    Backend.write watched kind id octets now = ((Backend.write watched.store kind id octets now).1,
      ⟨(Backend.write watched.store kind id octets now).2, watched.log
        ++ [.write kind id octets (Backend.write watched.store kind id octets now).1]⟩) := rfl

end Watching

/-! ## Cycles -/

/-- What a cycle of a call can come to. -/
inductive Attempt
  /-- The snapshot could not be read. -/
  | unread (error : StoreError)
  /-- A text was read and the update merged in at an instant, but nothing could be written. -/
  | unwritten (text : Option Octets) (mergedAt : Instant) (error : StoreError)
  /-- The snapshot was written and read again. -/
  | checked (text : Option Octets) (mergedAt : Instant) (answer : Except StoreError (Option Octets))

/-- The time at which a cycle merged the update. -/
def Attempt.mergedAt? : Attempt → Option Instant
  | .unread _ => none
  | .unwritten _ mergedAt _ => some mergedAt
  | .checked _ mergedAt _ => some mergedAt

namespace Call

variable {α : Type} [Mergeable α]

/-- The snapshot that follows a text: the update as the kind takes it, merged at an instant into the
snapshot that the text holds, or into the empty one when there is no text or no snapshot in it. The
origin is that of the call, if it has one. -/
def successor (call : Call α) (text : Option Octets) (mergedAt : Instant) : Snapshot α :=
  let before := (text.bind Snapshot.ofOctets?).getD .empty
  let after := (before.merge call.id (call.kind.prepare call.update) call.kind.tracked mergedAt).1
  match call.origin with
  | some origin => { after with origin := some origin }
  | none => after

theorem merged_eq_successor (call : Call α) (text : Option Octets) (mergedAt : Instant) :
    call.merged text mergedAt = call.successor text mergedAt := by
  unfold merged successor stored
  cases call.origin <;> rfl

/-- What was read again is a snapshot: there are octets, and they can be read as one. -/
def Confirms (α : Type) [Mergeable α] (answer : Except StoreError (Option Octets)) : Prop :=
  ∃ octets, answer = .ok (some octets) ∧ octets ≠ []
    ∧ (Snapshot.ofOctets? octets : Option (Snapshot α)).isSome

theorem verified_eq_true_iff {answer : Except StoreError (Option Octets)} :
    verified α answer = true ↔ Confirms α answer := by
  -- No octets are no snapshot.
  have hempty : (Snapshot.ofOctets? [] : Option (Snapshot α)) = none := rfl
  unfold Confirms
  rcases answer with error | _ | octets
  · simp [verified]
  · simp [verified]
  · cases octets with
    | nil => simp [verified, hempty]
    | cons first rest => simp [verified]

instance (answer : Except StoreError (Option Octets)) : Decidable (Confirms α answer) :=
  decidable_of_iff _ verified_eq_true_iff

/-- The operations of a cycle. What is written follows what was read before. -/
def operations (call : Call α) : Attempt → List Operation
  | .unread error => [.read call.kind.name call.id (.error error)]
  | .unwritten text mergedAt error =>
    [.read call.kind.name call.id (.ok text),
      .write call.kind.name call.id (call.successor text mergedAt).render (.error error)]
  | .checked text mergedAt answer =>
    [.read call.kind.name call.id (.ok text),
      .write call.kind.name call.id (call.successor text mergedAt).render (.ok ()),
      .read call.kind.name call.id answer]

theorem length_operations_le (call : Call α) (attempt : Attempt) :
    (call.operations attempt).length ≤ 3 := by
  cases attempt <;> simp [operations]

/-- The snapshot of a cycle that succeeds: it was written, and what was read again confirms it. -/
def success? (call : Call α) : Attempt → Option (Snapshot α)
  | .checked text mergedAt answer =>
    if Confirms α answer then some (call.successor text mergedAt) else none
  | _ => none

/-- Every cycle that has merged the update has done so at the time of its first operation. There is
one time for every operation. -/
def OnTime (call : Call α) (times : List Instant) (attempts : List Attempt) : Prop :=
  ∀ before attempt after, attempts = before ++ attempt :: after →
    ∀ mergedAt ∈ attempt.mergedAt?,
      times[(before.flatMap call.operations).length]? = some mergedAt

namespace OnTime

variable {call : Call α} {times : List Instant}

theorem nil : call.OnTime times [] := by
  intro before attempt after h
  simp at h

theorem cons {attempt : Attempt} {attempts : List Attempt}
    (hfirst : ∀ mergedAt ∈ attempt.mergedAt?, times.head? = some mergedAt)
    (hlater : call.OnTime (times.drop (call.operations attempt).length) attempts) :
    call.OnTime times (attempt :: attempts) := by
  intro before other after h mergedAt hmerged
  cases before with
  | nil =>
    obtain ⟨rfl, rfl⟩ := List.cons.inj h
    rw [List.flatMap_nil, List.length_nil, ← List.head?_eq_getElem?]
    exact hfirst mergedAt hmerged
  | cons earlier before =>
    obtain ⟨rfl, rfl⟩ := List.cons.inj h
    have htime := hlater before other after rfl mergedAt hmerged
    rw [List.getElem?_drop] at htime
    rw [List.flatMap_cons, List.length_append]
    exact htime

end OnTime

/-- A call with so many cycles left goes through some and has a result. -/
inductive Ends (call : Call α) : Nat → List Attempt → Except StoreError (Snapshot α) → Prop
  /-- No cycle is left. -/
  | exhausted : Ends call 0 [] (.error call.unconverged)
  /-- The next cycle succeeds. -/
  | succeeds {left : Nat} {attempt : Attempt} {s : Snapshot α}
    (h : call.success? attempt = some s) : Ends call (left + 1) [attempt] (.ok s)
  /-- The next cycle does not succeed. -/
  | fails {left : Nat} {attempt : Attempt} {attempts : List Attempt}
    {result : Except StoreError (Snapshot α)} (h : call.success? attempt = none)
    (later : Ends call left attempts result) : Ends call (left + 1) (attempt :: attempts) result

/-- A call ends with the first cycle that succeeds, or when it has gone through all cycles. -/
theorem Ends.cases {call : Call α} {left : Nat} {attempts : List Attempt}
    {result : Except StoreError (Snapshot α)} (h : call.Ends left attempts result) :
    (∃ failed last s, attempts = failed ++ [last] ∧ attempts.length ≤ left
        ∧ (∀ attempt ∈ failed, call.success? attempt = none) ∧ call.success? last = some s
        ∧ result = .ok s)
      ∨ (attempts.length = left ∧ (∀ attempt ∈ attempts, call.success? attempt = none)
        ∧ result = .error call.unconverged) := by
  induction h with
  | exhausted => exact .inr ⟨rfl, by simp, rfl⟩
  | succeeds h => exact .inl ⟨[], _, _, rfl, by simp, by simp, h, rfl⟩
  | fails h later ih =>
    rcases ih with ⟨failed, last, s, rfl, hlength, hfailed, hlast, hresult⟩
      | ⟨hlength, hfailed, hresult⟩
    · exact .inl ⟨_ :: failed, last, s, rfl, Nat.succ_le_succ hlength,
        List.forall_mem_cons.mpr ⟨h, hfailed⟩, hlast, hresult⟩
    · exact .inr ⟨congrArg (· + 1) hlength, List.forall_mem_cons.mpr ⟨h, hfailed⟩, hresult⟩

/-! ## Runs -/

section Runs

variable {σ : Type} [Backend σ] (call : Call α)

/-- Some steps of a call, each at its own time. -/
def advance (times : List Instant) (at_ : Phase α × σ) : Phase α × σ :=
  times.foldl (fun at_ now => call.step now at_.1 at_.2) at_

theorem advance_cons (now : Instant) (times : List Instant) (phase : Phase α) (state : σ) :
    call.advance (now :: times) (phase, state) = call.advance times (call.step now phase state) :=
  rfl

theorem advance_done (times : List Instant) (result : Except StoreError (Snapshot α)) (state : σ) :
    call.advance times (.done result, state) = (.done result, state) := by
  induction times with
  | nil => rfl
  | cons now times ih => exact ih

/-- Steps at one time are the run of the call. -/
theorem advance_replicate {n : Nat} (now : Instant) {phase : Phase α} (state : σ)
    (h : phase.left ≤ n) :
    call.advance (List.replicate n now) (phase, state)
      = (.done (call.finish now phase state).1, (call.finish now phase state).2) := by
  induction n generalizing phase state with
  | zero =>
    cases phase with
    | done result =>
      rw [finish]
      rfl
    | _ => simp at h
  | succ n ih =>
    have hleft : (call.step now phase state).1.left ≤ n := by
      cases hdone : phase.isDone with
      | false =>
        have := call.left_step_lt now phase state hdone
        omega
      | true =>
        obtain ⟨result, rfl⟩ := Phase.exists_done hdone
        exact Nat.zero_le n
    rw [List.replicate_succ, advance_cons, finish_step]
    exact ih _ hleft

/-- Whether a backend is watched does not matter to a call. -/
theorem advance_watched (times : List Instant) (phase : Phase α) (watched : Watched σ) :
    ((call.advance times (phase, watched)).1, (call.advance times (phase, watched)).2.store)
      = call.advance times (phase, watched.store) := by
  have hstep (now : Instant) (phase : Phase α) (watched : Watched σ) :
      ((call.step now phase watched).1, (call.step now phase watched).2.store)
        = call.step now phase watched.store := by
    cases phase with
    | reading more =>
      simp only [step, Watched.read_eq]
      rcases Backend.read watched.store call.kind.name call.id with ⟨_ | _, _⟩ <;> rfl
    | writing more s =>
      simp only [step, Watched.write_eq]
      rcases Backend.write watched.store call.kind.name call.id s.render now with ⟨_ | _, _⟩ <;> rfl
    | verifying more s => rfl
    | done result => rfl
  induction times generalizing phase watched with
  | nil => rfl
  | cons now times ih =>
    rw [advance_cons, advance_cons, ← hstep]
    exact ih _ _

/-- The phase after a cycle with so many cycles left. -/
def afterAttempt (more : Nat) (attempt : Attempt) : Phase α :=
  match call.success? attempt with
  | some s => .done (.ok s)
  | none => call.begin more

/-- The next steps of a call are the operations of a cycle, and lead to the next cycle or to the end
of the call. -/
theorem exists_attempt (more : Nat) (first second third : Instant) (rest : List Instant)
    (watched : Watched σ) :
    ∃ attempt next, call.advance (first :: second :: third :: rest) (.reading more, watched)
        = call.advance ((first :: second :: third :: rest).drop (call.operations attempt).length)
            (call.afterAttempt more attempt, next)
      ∧ next.log = watched.log ++ call.operations attempt
      ∧ ∀ mergedAt ∈ attempt.mergedAt?, mergedAt = first := by
  rw [advance_cons, step, Watched.read_eq]
  obtain ⟨answer, store⟩ := Backend.read watched.store call.kind.name call.id
  cases answer with
  | error error => exact ⟨.unread error, _, rfl, rfl, fun mergedAt h => by cases h⟩
  | ok text =>
    dsimp only
    rw [merged_eq_successor, advance_cons, step, Watched.write_eq]
    obtain ⟨answer, store⟩ := Backend.write store call.kind.name call.id
      (call.successor text first).render second
    cases answer with
    | error error =>
      dsimp only
      rw [List.append_assoc]
      exact ⟨.unwritten text first error, _, rfl, rfl, fun mergedAt h => by cases h; rfl⟩
    | ok =>
      dsimp only
      rw [advance_cons, step, Watched.read_eq]
      obtain ⟨answer, store⟩ := Backend.read store call.kind.name call.id
      have hphase : (if verified α answer then .done (.ok (call.successor text first))
          else call.begin more) = call.afterAttempt more (.checked text first answer) := by
        rw [afterAttempt, success?]
        by_cases hconfirms : Confirms α answer
        · rw [if_pos hconfirms, if_pos (verified_eq_true_iff.mpr hconfirms)]
        · rw [if_neg hconfirms, if_neg (mt verified_eq_true_iff.mp hconfirms)]
      dsimp only
      rw [hphase, List.append_assoc, List.append_assoc]
      exact ⟨.checked text first answer, _, rfl, rfl, fun mergedAt h => by cases h; rfl⟩

/-- What a call does from the begin of a cycle on: it goes through some of the cycles that are left,
with all their operations. -/
theorem advance_begin (left : Nat) {times : List Instant} (hlength : 3 * left ≤ times.length)
    (watched : Watched σ) :
    ∃ attempts result, (call.advance times (call.begin left, watched)).1 = .done result
      ∧ call.Ends left attempts result
      ∧ (call.advance times (call.begin left, watched)).2.log
        = watched.log ++ attempts.flatMap call.operations
      ∧ call.OnTime times attempts := by
  induction left generalizing times watched with
  | zero =>
    refine ⟨[], .error call.unconverged, ?_, .exhausted, ?_, .nil⟩
    · rw [begin, advance_done]
    · rw [begin, advance_done, List.flatMap_nil, List.append_nil]
  | succ left ih =>
    -- No cycle has more than three steps, and there is a time for each.
    obtain _ | ⟨first, _ | ⟨second, _ | ⟨third, rest⟩⟩⟩ := times
    iterate 3
      simp only [List.length_nil, List.length_cons] at hlength
      omega
    obtain ⟨attempt, next, hadvance, hlog, hmerged⟩ :=
      call.exists_attempt left first second third rest watched
    have hfirst : ∀ mergedAt ∈ attempt.mergedAt?,
        (first :: second :: third :: rest).head? = some mergedAt :=
      fun mergedAt h => congrArg some (hmerged mergedAt h).symm
    rw [begin, hadvance, afterAttempt]
    cases hsuccess : call.success? attempt with
    | some s =>
      rw [advance_done]
      refine ⟨[attempt], .ok s, rfl, .succeeds hsuccess, ?_, .cons hfirst .nil⟩
      rw [hlog, List.flatMap_singleton]
    | none =>
      have hleft : 3 * left ≤ ((first :: second :: third :: rest).drop
          (call.operations attempt).length).length := by
        have hsteps := call.length_operations_le attempt
        rw [List.length_drop]
        omega
      obtain ⟨attempts, result, hdone, hends, hlater, htime⟩ := ih hleft next
      refine ⟨attempt :: attempts, result, hdone, .fails hsuccess hends, ?_, .cons hfirst htime⟩
      rw [hlater, hlog, List.flatMap_cons, List.append_assoc]

/-- What a call does, whatever a backend answers, when each of its operations takes place at the
next reading of a clock. -/
theorem attempts_of_any_backend (clock : Nat → Instant) (store : σ) :
    let times := (List.range (3 * call.attempts)).map clock
    let run := call.advance times (call.start, (⟨store, []⟩ : Watched σ))
    -- A text that is no id is refused, and the backend is not asked.
    (¬ EntityId.Valid call.id →
        run.1 = .done (.error (.invalidId call.id)) ∧ run.2.log = [])
      -- With an id, the operations are those of some cycles.
      ∧ (EntityId.Valid call.id → ∃ attempts, run.2.log = attempts.flatMap call.operations
        ∧ (∀ before attempt after mergedAt, attempts = before ++ attempt :: after →
          attempt.mergedAt? = some mergedAt →
            mergedAt = clock (before.flatMap call.operations).length)
        -- The first cycle that succeeds is the last, and its snapshot is the result.
        ∧ ((∃ failed last s, attempts = failed ++ [last] ∧ attempts.length ≤ call.attempts
            ∧ (∀ attempt ∈ failed, call.success? attempt = none) ∧ call.success? last = some s
            ∧ run.1 = .done (.ok s))
          ∨ (attempts.length = call.attempts ∧ (∀ attempt ∈ attempts, call.success? attempt = none)
            ∧ run.1 = .done (.error (.unconverged call.kind.name call.id call.attempts)))))
      -- The backend need not be watched for that.
      ∧ (run.1, run.2.store) = call.advance times (call.start, store)
      ∧ ∀ now, (∀ n, clock n = now) →
        call.advance times (call.start, store)
          = (.done (call.run now store).1, (call.run now store).2) := by
  intro times run
  have hlength : times.length = 3 * call.attempts := by simp [times]
  refine ⟨fun hinvalid => ?_, fun hvalid => ?_, call.advance_watched times _ _,
    fun now hclock => ?_⟩
  · have hrun : run = (.done (.error (.invalidId call.id)), ⟨store, []⟩) := by
      simp only [run, start, if_neg hinvalid, advance_done]
    exact ⟨congrArg Prod.fst hrun, congrArg (fun end_ => end_.2.log) hrun⟩
  · have hrun : run = call.advance times (call.begin call.attempts, ⟨store, []⟩) := by
      simp only [run, start, if_pos hvalid]
    obtain ⟨attempts, result, hdone, hends, hlog, htime⟩ :=
      call.advance_begin call.attempts hlength.ge (⟨store, []⟩ : Watched σ)
    rw [← hrun] at hdone hlog
    refine ⟨attempts, hlog, fun before attempt after mergedAt hattempts hmerged => ?_, ?_⟩
    · have htimes := htime before attempt after hattempts mergedAt hmerged
      rw [List.getElem?_map, Option.map_eq_some_iff] at htimes
      obtain ⟨i, hi, rfl⟩ := htimes
      rw [(List.getElem?_eq_some_iff.mp hi).2.symm, List.getElem_range]
    · rw [hdone]
      rcases hends.cases with ⟨failed, last, s, heq, hle, hfailed, hlast, rfl⟩ | ⟨hle, hfailed, rfl⟩
      · exact .inl ⟨failed, last, s, heq, hle, hfailed, hlast, rfl⟩
      · exact .inr ⟨hle, hfailed, rfl⟩
  · have htimes : times = List.replicate (3 * call.attempts) now := by
      refine List.eq_replicate_iff.mpr ⟨hlength, fun time htime => ?_⟩
      obtain ⟨n, -, rfl⟩ := List.mem_map.mp htime
      exact hclock n
    rw [htimes, call.advance_replicate now store call.left_start_le]
    rfl

end Runs

end Call

end FieldTelemetry.Store
