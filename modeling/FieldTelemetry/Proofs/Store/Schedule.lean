import FieldTelemetry.Proofs.Store.Lanes
import FieldTelemetry.Proofs.Store.Merge
import FieldTelemetry.Store.InOrder

/-!
# Calls at work

Calls that have their tickets take their steps in any order, as far as they may pass. In memory, the
entry of an entity shows the updates of the calls that have ended, in the order of their tickets.

## Main definitions

* `Job`: a call at work, with its next step
* `Memory.snapshot`: the stored snapshot of an entity
* `Settled`: an entry shows the updates of calls
* `Progress`: the calls of a kind, of which some have ended and others are at work

## Main results

* `Progress.queue`, `Progress.next`: calls are queued and take steps
* `Progress.settled`: what the entries show when no call is at work
-/

namespace FieldTelemetry.Store

open Time (Instant)

/-! ## Jobs -/

/-- A call that has its ticket, and how far it has come. -/
structure Job (α : Type) where
  /-- The call with its ticket. -/
  queued : Queued α
  /-- How far it has come. -/
  phase : Phase α

/-- A call that has its ticket and has not begun. -/
def Queued.job {α : Type} (queued : Queued α) : Job α := ⟨queued, queued.call.start⟩

namespace Job

variable {α : Type}

/-- The ticket of a call. -/
def ticket (job : Job α) : Ticket := job.queued.ticket

/-- The call. -/
def call (job : Job α) : Call α := job.queued.call

/-- The result of a call that has ended. -/
def result? (job : Job α) : Option (Except StoreError (Snapshot α)) :=
  match job.phase with
  | .done result => some result
  | _ => none

/-- The next step of a call, if it is its turn. After its end the ticket is given back, and nothing
is left of the call. -/
def next? {σ : Type} [Mergeable α] [Backend σ] (job : Job α) (lanes : Lanes) (now : Instant)
    (state : σ) : Option (Option (Job α) × Lanes × σ) :=
  if lanes.mayPass job.ticket then
    match job.result? with
    | some _ => some (none, lanes.giveBack job.ticket, state)
    | none =>
      let (phase, state) := job.call.step now job.phase state
      some (some { job with phase }, lanes, state)
  else none

/-- What a step of a call is: it ends with its ticket given back, or it goes on. -/
theorem next?_cases {σ : Type} [Mergeable α] [Backend σ] {job : Job α} {next : Option (Job α)}
    {lanes lanes' : Lanes} {now : Instant} {state state' : σ}
    (h : job.next? lanes now state = some (next, lanes', state')) :
    lanes.mayPass job.ticket = true
      ∧ ((job.result?.isSome ∧ next = none ∧ lanes' = lanes.giveBack job.ticket ∧ state' = state)
        ∨ (job.result? = none
          ∧ next = some { job with phase := (job.call.step now job.phase state).1 }
          ∧ lanes' = lanes ∧ state' = (job.call.step now job.phase state).2)) := by
  rw [next?] at h
  split at h
  · rename_i hpass
    refine ⟨hpass, ?_⟩
    cases hresult : job.result? with
    | some result =>
      rw [hresult] at h
      cases h
      exact .inl ⟨rfl, rfl, rfl, rfl⟩
    | none =>
      rw [hresult] at h
      cases h
      exact .inr ⟨rfl, rfl, rfl, rfl⟩
  · cases h

end Job

/-! ## Memory -/

namespace Memory

variable {α : Type}

/-- What is stored for an entity. -/
def stored? (memory : Memory) (kind : EntityKind α) (id : String) : Option (Octets × Instant) :=
  memory.snapshots.get? (kind.name, id)

/-- The snapshot that an entry holds, or the empty one. -/
def snapshotOf [Mergeable α] (entry : Option (Octets × Instant)) : Snapshot α :=
  Call.stored (entry.map Prod.fst)

/-- The stored snapshot of an entity, or the empty one. -/
def snapshot [Mergeable α] (memory : Memory) (kind : EntityKind α) (id : String) : Snapshot α :=
  snapshotOf (memory.stored? kind id)

theorem read_eq {kind id : String} (hid : EntityId.Valid id) (memory : Memory) :
    Backend.read memory kind id
      = (.ok ((memory.snapshots.get? (kind, id)).map Prod.fst), memory) :=
  if_pos hid

theorem write_eq {kind id : String} (hid : EntityId.Valid id) (memory : Memory) (octets : Octets)
    (now : Instant) : Backend.write memory kind id octets now
      = (.ok (), ⟨memory.snapshots.insert (kind, id) (octets, now)⟩) :=
  if_pos hid

/-- The stored snapshot is the one that is loaded. -/
theorem load_eq [Mergeable α] (kind : EntityKind α) {id : String} (hid : EntityId.Valid id)
    (memory : Memory) : load kind id memory = (.ok (memory.snapshot kind id), memory) := by
  rw [load, read_eq hid]
  rfl

end Memory

/-! ## Entries -/

section Entries

variable {α : Type} [Mergeable α]

/-- An entry shows the updates of calls, which have been merged into the entry before them. -/
structure Settled [Lasting α] (before : Option (Octets × Instant)) (calls : List (Call α))
    (entry : Option (Octets × Instant)) : Prop where
  /-- Nothing is written when there are no calls. -/
  unchanged : calls = [] → entry = before
  /-- A snapshot is written when there are calls. -/
  written : calls ≠ [] → ∃ (s : Snapshot α) (modified : Instant),
    entry = some (s.render, modified) ∧ Snapshot.ofOctets? s.render = some s
  /-- The snapshot lasts. -/
  lasts : Lasts (Memory.snapshotOf entry : Snapshot α)
  /-- It is the one before with the updates merged in, but for the times of its changes. -/
  content : ∀ now, (Memory.snapshotOf entry : Snapshot α).content
    = ((Memory.snapshotOf before : Snapshot α).after calls now).content

section Settled

variable [Lasting α] {before entry : Option (Octets × Instant)} {calls : List (Call α)}

theorem Memory.snapshotOf_render {s : Snapshot α} (h : Lasts s) (modified : Instant) :
    (snapshotOf (some (s.render, modified)) : Snapshot α) = s := by
  rw [snapshotOf, Option.map_some, Call.stored, Option.bind_some, Snapshot.ofOctets?_render h,
    Option.getD_some]

theorem Settled.start (h : Lasts (Memory.snapshotOf before : Snapshot α)) :
    Settled before ([] : List (Call α)) before where
  unchanged _ := rfl
  written hne := absurd rfl hne
  lasts := h
  content _ := rfl

/-- One more update is merged in. -/
theorem Settled.append (h : Settled before calls entry) {call : Call α} (hcall : call.Survives)
    (now modified : Instant) :
    Settled before (calls ++ [call])
      (some ((call.onto (Memory.snapshotOf entry) now).render, modified)) := by
  have hlasts := Call.lasts_onto hcall h.lasts now
  refine ⟨fun hnil => absurd hnil (List.concat_ne_nil _ _), fun _ => ?_, ?_, ?_⟩
  · exact ⟨_, modified, rfl, Snapshot.ofOctets?_render hlasts⟩
  · rw [Memory.snapshotOf_render hlasts]
    exact hlasts
  · intro later
    rw [Memory.snapshotOf_render hlasts, Snapshot.after_append]
    exact call.content_onto (h.content later) now later

end Settled

end Entries

/-! ## One entity -/

section Entity

variable {α : Type} [Mergeable α] [Lasting α] {before entry : Option (Octets × Instant)}
  {ended : List (Call α)} {job : Job α}

/-- What an entry shows of the calls that have ended and of one that is at work. -/
def Job.At (before entry : Option (Octets × Instant)) (ended : List (Call α)) (job : Job α) :
    Prop :=
  match job.phase with
  | .reading _ => Settled before ended entry
  | .writing _ s => Settled before ended entry
    ∧ ∃ now, s = job.call.onto (Memory.snapshotOf entry) now
  | .verifying _ _ | .done _ => Settled before (ended ++ [job.call]) entry

/-- What an entry shows of the calls that have ended and of those at work: only the first of them
has begun. -/
def Shows (before entry : Option (Octets × Instant)) (ended : List (Call α)) :
    List (Job α) → Prop
  | [] => Settled before ended entry
  | job :: rest => job.At before entry ended ∧ ∀ other ∈ rest, other.phase = other.call.start

/-- Calls of a kind that try at least once, with numbers that survive. -/
structure Call.Sound (kind : EntityKind α) (call : Call α) : Prop where
  /-- They are calls of the kind. -/
  kind_eq : call.kind = kind
  /-- They try once. -/
  attempts_pos : 0 < call.attempts
  /-- Their numbers survive. -/
  survives : call.Survives

theorem Shows.of_start {rest : List (Job α)} (h : Settled before ended entry)
    (hstart : ∀ job ∈ rest, job.phase = job.call.start)
    (hcalls : ∀ job ∈ rest, EntityId.Valid job.call.id ∧ 0 < job.call.attempts) :
    Shows before entry ended rest := by
  cases rest with
  | nil => exact h
  | cons job rest =>
    obtain ⟨hid, hattempts⟩ := hcalls job List.mem_cons_self
    have hphase := hstart job List.mem_cons_self
    rw [Call.start_eq_reading hid hattempts] at hphase
    refine ⟨?_, fun other hother => hstart other (List.mem_cons_of_mem _ hother)⟩
    rw [Job.At, hphase]
    exact h

/-- A call that has not begun comes last. -/
theorem Shows.concat {jobs : List (Job α)} (h : Shows before entry ended jobs)
    (hstart : job.phase = job.call.start) (hid : EntityId.Valid job.call.id)
    (hattempts : 0 < job.call.attempts) : Shows before entry ended (jobs ++ [job]) := by
  cases jobs with
  | nil =>
    apply Shows.of_start h
    · intro other hother
      rw [List.mem_singleton.mp hother]
      exact hstart
    · intro other hother
      rw [List.mem_singleton.mp hother]
      exact ⟨hid, hattempts⟩
  | cons first rest =>
    refine ⟨h.1, ?_⟩
    intro other hother
    -- All but the first have not begun, and neither has the new one.
    rcases List.mem_append.mp hother with hother | hother
    · exact h.2 other hother
    · rw [List.mem_singleton.mp hother]
      exact hstart

/-- The first call has ended, and the next is the first. -/
theorem Shows.tail {rest : List (Job α)} (h : Shows before entry ended (job :: rest))
    (hresult : job.result?.isSome)
    (hcalls : ∀ job ∈ rest, EntityId.Valid job.call.id ∧ 0 < job.call.attempts) :
    Shows before entry (ended ++ [job.call]) rest := by
  refine Shows.of_start ?_ h.2 hcalls
  obtain ⟨queued, phase⟩ := job
  cases phase with
  | done result => exact h.1
  | _ => cases hresult

/-- A call at work on an entity that has an id takes a step. -/
theorem Job.At.step {kind : EntityKind α} {memory : Memory} {id : String}
    (h : job.At before (memory.stored? kind id) ended) (hsound : job.call.Sound kind)
    (hid : EntityId.Valid id) (hcall : job.call.id = id) (now : Instant) :
    ({ job with phase := (job.call.step now job.phase memory).1 } : Job α).At before
      ((job.call.step now job.phase memory).2.stored? kind id) ended := by
  subst hcall
  obtain ⟨⟨ticket, call⟩, phase⟩ := job
  obtain ⟨hkind, -, hsurvives⟩ := hsound
  dsimp only [Job.call] at hkind hid hsurvives
  subst hkind
  -- One case for each phase: the read leaves everything as it is, the write appends the call, and
  -- the check finds what was written.
  cases phase with
  | reading more =>
    rw [Job.call, Call.step, Memory.read_eq hid]
    dsimp only
    rw [Call.merged_eq]
    exact ⟨h, now, rfl⟩
  | writing more s =>
    obtain ⟨hsettled, merged, hmerged⟩ := h
    dsimp only [Job.call] at hmerged
    subst hmerged
    rw [Job.call, Call.step, Memory.write_eq hid]
    dsimp only [Memory.stored?]
    rw [Table.get?_insert, if_pos rfl]
    exact hsettled.append hsurvives merged now
  | verifying more s =>
    have hsettled : Settled before (ended ++ [call]) (memory.stored? call.kind call.id) := h
    obtain ⟨stored, modified, hentry, hread⟩ := hsettled.written (List.concat_ne_nil _ _)
    -- What was written can be read back, so the check succeeds at the first attempt.
    have hverified : Call.verified α
        (.ok ((memory.snapshots.get? (call.kind.name, call.id)).map Prod.fst)) = true := by
      change Call.verified α (.ok ((memory.stored? call.kind call.id).map Prod.fst)) = true
      rw [hentry, Option.map_some, Call.verified, hread]
      rfl
    rw [Job.call, Call.step, Memory.read_eq hid]
    dsimp only
    rw [if_pos hverified]
    exact h
  | done result => exact h

omit [Lasting α] in
/-- A step of a call changes no entry but that of its entity. -/
theorem Call.get?_step (call : Call α) (now : Instant) (phase : Phase α) (memory : Memory)
    {key : String × String} (hkey : key ≠ (call.kind.name, call.id)) :
    (call.step now phase memory).2.snapshots.get? key = memory.snapshots.get? key := by
  -- Reading changes nothing.
  have hread : (Backend.read memory call.kind.name call.id).2 = memory := by
    change (withId call.id memory _).2 = memory
    rw [withId]
    split <;> rfl
  cases phase with
  | reading more =>
    rw [step]
    split
    · rename_i heq
      rw [heq] at hread
      rw [hread]
    · rename_i heq
      rw [heq] at hread
      rw [hread]
  | writing more s =>
    have hwrite : (Backend.write memory call.kind.name call.id s.render now).2.snapshots.get? key
        = memory.snapshots.get? key := by
      change (withId call.id memory _).2.snapshots.get? key = _
      rw [withId]
      split
      · exact (Table.get?_insert ..).trans (if_neg hkey)
      · rfl
    rw [step]
    split
    · rename_i heq
      rw [heq] at hwrite
      exact hwrite
    · rename_i heq
      rw [heq] at hwrite
      exact hwrite
  | verifying more s => exact congrArg (fun m : Memory => m.snapshots.get? key) hread
  | done result => rfl

end Entity

/-! ## All entities of a kind -/

section Kinds

variable {α : Type}

/-- The calls at work on an entity. -/
def jobsOf (id : String) (jobs : List (Job α)) : List (Job α) := jobs.filter (·.ticket.id = id)

/-- The calls for an entity. -/
def callsOf (id : String) (calls : List (Call α)) : List (Call α) := calls.filter (·.id = id)

theorem callsOf_append (id : String) (calls calls' : List (Call α)) :
    callsOf id (calls ++ calls') = callsOf id calls ++ callsOf id calls' :=
  List.filter_append ..

theorem callsOf_singleton (id : String) (call : Call α) :
    callsOf id [call] = if call.id = id then [call] else [] := by
  by_cases heq : call.id = id
  · rw [if_pos heq, callsOf, List.filter_cons_of_pos (by simp [heq])]
    rfl
  · rw [if_neg heq, callsOf, List.filter_cons_of_neg (by simp [heq])]
    rfl

section JobsOf

variable {id : String} {front back : List (Job α)} {job : Job α}

theorem jobsOf_append (id : String) (front back : List (Job α)) :
    jobsOf id (front ++ back) = jobsOf id front ++ jobsOf id back :=
  List.filter_append ..

theorem jobsOf_cons_of_eq (h : job.ticket.id = id) (back : List (Job α)) :
    jobsOf id (job :: back) = job :: jobsOf id back :=
  List.filter_cons_of_pos (by simp [h])

theorem jobsOf_cons_of_ne (h : job.ticket.id ≠ id) (back : List (Job α)) :
    jobsOf id (job :: back) = jobsOf id back :=
  List.filter_cons_of_neg (by simp [h])

theorem ofId_map_ticket (id : String) (jobs : List (Job α)) :
    ofId id (jobs.map Job.ticket) = (jobsOf id jobs).map Job.ticket :=
  List.filter_map

/-- A call that may pass is the first at work on its entity. -/
theorem jobsOf_of_mayPass {lanes : Lanes}
    (h : lanes.Orderly ((front ++ job :: back).map Job.ticket))
    (hpass : lanes.mayPass job.ticket = true) : jobsOf job.ticket.id front = [] := by
  rw [List.map_append, List.map_cons] at h
  have hnone := h.mayPass_iff.mp hpass
  rw [ofId_map_ticket] at hnone
  exact List.map_eq_nil_iff.mp hnone

end JobsOf

variable [Mergeable α] [Lasting α]

/-- Calls of a kind have been queued over the entries of a memory. Some have ended, and the others
are at work. -/
structure Progress (kind : EntityKind α) (before : Memory) (calls : List (Call α)) (lanes : Lanes)
    (jobs : List (Job α)) (memory : Memory) : Prop where
  /-- The calls at work have their tickets in order. -/
  orderly : lanes.Orderly (jobs.map Job.ticket)
  /-- Every ticket is one for the entity of its call. -/
  ticket_id : ∀ job ∈ jobs, job.ticket.id = job.call.id
  /-- Calls are those that have ended and those at work, and the entry of the entity shows them. -/
  entity : ∀ id, ∃ ended, callsOf id calls = ended ++ (jobsOf id jobs).map Job.call
    ∧ (EntityId.Valid id →
      Shows (before.stored? kind id) (memory.stored? kind id) ended (jobsOf id jobs))
    ∧ (¬ EntityId.Valid id → memory.stored? kind id = before.stored? kind id
      ∧ ∀ job ∈ jobsOf id jobs, job.result?.isSome)

namespace Progress

variable {kind : EntityKind α} {before memory : Memory} {calls : List (Call α)} {lanes : Lanes}
  {jobs front back : List (Job α)} {job : Job α}

theorem start (h : ∀ id, Lasts (before.snapshot kind id)) :
    Progress kind before [] {} [] before where
  orderly := .empty
  ticket_id _ hmem := absurd hmem List.not_mem_nil
  entity id := by
    refine ⟨[], rfl, ?_, ?_⟩
    · intro _
      exact .start (h id)
    · intro _
      exact ⟨rfl, fun _ hmem => absurd hmem List.not_mem_nil⟩

/-- Entries of other kinds do not matter. -/
theorem congr (h : Progress kind before calls lanes jobs memory) {memory' : Memory}
    (hentries : ∀ id, memory'.stored? kind id = memory.stored? kind id) :
    Progress kind before calls lanes jobs memory' where
  orderly := h.orderly
  ticket_id := h.ticket_id
  entity id := by
    rw [hentries]
    exact h.entity id

theorem call_mem (h : Progress kind before calls lanes jobs memory) (hjob : job ∈ jobs) :
    job.call ∈ calls := by
  obtain ⟨ended, hcalls, -⟩ := h.entity job.ticket.id
  have hmem : job ∈ jobsOf job.ticket.id jobs := List.mem_filter.mpr ⟨hjob, by simp⟩
  have hcall : job.call ∈ callsOf job.ticket.id calls := by
    rw [hcalls]
    exact List.mem_append_right _ (List.mem_map_of_mem hmem)
  exact List.mem_of_mem_filter hcall

/-- A call is queued. -/
theorem queue (h : Progress kind before calls lanes jobs memory) {call : Call α}
    (hcall : call.Sound kind) :
    Progress kind before (calls ++ [call]) (call.queue lanes).2
      (jobs ++ [(call.queue lanes).1.job]) memory := by
  have hticket : (call.queue lanes).1.job.ticket = (lanes.take call.id).1 := rfl
  refine ⟨?_, ?_, ?_⟩
  · rw [List.map_append]
    exact h.orderly.take call.id
  · intro job hjob
    rcases List.mem_append.mp hjob with hjob | hjob
    · exact h.ticket_id job hjob
    · rw [List.mem_singleton.mp hjob]
      rfl
  · intro id
    obtain ⟨ended, hcalls, hvalid, hinvalid⟩ := h.entity id
    -- The call is the last one for its entity, and no other entity hears of it.
    by_cases heq : call.id = id
    · have hcalls' : callsOf id (calls ++ [call]) = callsOf id calls ++ [call] := by
        rw [callsOf_append, callsOf_singleton, if_pos heq]
      have hjobs' : jobsOf id (jobs ++ [(call.queue lanes).1.job])
          = jobsOf id jobs ++ [(call.queue lanes).1.job] := by
        have hid : (call.queue lanes).1.job.ticket.id = id := heq
        rw [jobsOf_append, jobsOf_cons_of_eq hid]
        rfl
      refine ⟨ended, ?_, ?_, ?_⟩
      · rw [hcalls', hjobs', hcalls, List.map_append, List.append_assoc]
        rfl
      · intro hid
        rw [hjobs']
        exact (hvalid hid).concat rfl (heq ▸ hid) hcall.attempts_pos
      · intro hid
        refine ⟨(hinvalid hid).1, ?_⟩
        intro job hjob
        rw [hjobs'] at hjob
        rcases List.mem_append.mp hjob with hjob | hjob
        · exact (hinvalid hid).2 job hjob
        · -- A call for what is no id has ended before it begins.
          have hstart : call.start = .done (.error (.invalidId call.id)) := by
            rw [Call.start, if_neg (heq ▸ hid)]
          rw [List.mem_singleton.mp hjob, Job.result?]
          change (match call.start with | .done result => some result | _ => none).isSome = true
          rw [hstart]
          rfl
    · have hcalls' : callsOf id (calls ++ [call]) = callsOf id calls := by
        rw [callsOf_append, callsOf_singleton, if_neg heq, List.append_nil]
      have hjobs' : jobsOf id (jobs ++ [(call.queue lanes).1.job]) = jobsOf id jobs := by
        have hid : (call.queue lanes).1.job.ticket.id ≠ id := heq
        rw [jobsOf_append, jobsOf_cons_of_ne hid]
        exact List.append_nil _
      rw [hcalls', hjobs']
      exact ⟨ended, hcalls, hvalid, hinvalid⟩

/-- A call that may pass is the first at work on its entity. -/
theorem jobsOf_eq (h : Progress kind before calls lanes (front ++ job :: back) memory)
    (hpass : lanes.mayPass job.ticket = true) :
    jobsOf job.ticket.id (front ++ job :: back) = job :: jobsOf job.ticket.id back
      ∧ jobsOf job.ticket.id (front ++ back) = jobsOf job.ticket.id back := by
  have hfront := jobsOf_of_mayPass h.orderly hpass
  refine ⟨?_, ?_⟩
  · rw [jobsOf_append, hfront, jobsOf_cons_of_eq rfl, List.nil_append]
  · rw [jobsOf_append, hfront, List.nil_append]

theorem sound_of_mem (h : Progress kind before calls lanes jobs memory)
    (hsound : ∀ call ∈ calls, call.Sound kind) {id : String} {job : Job α}
    (hjob : job ∈ jobsOf id jobs) : job.call.id = id ∧ job.call.Sound kind := by
  obtain ⟨hmem, hid⟩ := List.mem_filter.mp hjob
  refine ⟨(h.ticket_id job hmem).symm.trans (of_decide_eq_true hid), ?_⟩
  exact hsound job.call (h.call_mem hmem)

/-- A call that has ended leaves the next one for its entity as the first. -/
theorem leave (h : Progress kind before calls lanes (front ++ job :: back) memory)
    (hsound : ∀ call ∈ calls, call.Sound kind) (hpass : lanes.mayPass job.ticket = true)
    (hresult : job.result?.isSome) :
    Progress kind before calls (lanes.giveBack job.ticket) (front ++ back) memory := by
  obtain ⟨hfirst, hrest⟩ := h.jobsOf_eq hpass
  have horderly := h.orderly
  rw [List.map_append, List.map_cons] at horderly
  refine ⟨?_, ?_, ?_⟩
  · rw [List.map_append]
    exact horderly.giveBack hpass
  · intro other hother
    apply h.ticket_id other
    exact (List.Sublist.append_left (List.sublist_cons_self ..) front).subset hother
  · intro id
    obtain ⟨ended, hcalls, hvalid, hinvalid⟩ := h.entity id
    -- The call joins those that have ended, and the next one for its entity is the first.
    by_cases heq : job.ticket.id = id
    · subst heq
      have hmember : ∀ other ∈ jobsOf job.ticket.id back,
          other ∈ jobsOf job.ticket.id (front ++ job :: back) := by
        rw [hfirst]
        exact fun _ => List.mem_cons_of_mem _
      rw [hfirst] at hcalls hvalid
      rw [hrest]
      refine ⟨ended ++ [job.call], ?_, ?_, ?_⟩
      · rw [hcalls, List.map_cons, List.append_assoc]
        rfl
      · intro hid
        apply (hvalid hid).tail hresult
        intro other hother
        obtain ⟨hother, hcall⟩ := h.sound_of_mem hsound (hmember other hother)
        exact ⟨hother ▸ hid, hcall.attempts_pos⟩
      · intro hid
        exact ⟨(hinvalid hid).1, fun other hother => (hinvalid hid).2 other (hmember other hother)⟩
    · have hsame : jobsOf id (front ++ job :: back) = jobsOf id (front ++ back) := by
        rw [jobsOf_append, jobsOf_append, jobsOf_cons_of_ne heq]
      rw [hsame] at hcalls hvalid hinvalid
      exact ⟨ended, hcalls, hvalid, hinvalid⟩

/-- A call that has not ended goes on, and only the entry of its entity may change. -/
theorem advance (h : Progress kind before calls lanes (front ++ job :: back) memory)
    (hsound : ∀ call ∈ calls, call.Sound kind) (hpass : lanes.mayPass job.ticket = true)
    (hresult : job.result? = none) (now : Instant) :
    Progress kind before calls lanes
      (front ++ { job with phase := (job.call.step now job.phase memory).1 } :: back)
      (job.call.step now job.phase memory).2 := by
  obtain ⟨hfirst, -⟩ := h.jobsOf_eq hpass
  obtain ⟨hid, hcall⟩ := h.sound_of_mem hsound (hfirst ▸ List.mem_cons_self)
  generalize hnext : ({ job with phase := (job.call.step now job.phase memory).1 } : Job α) = next
  have hticket : next.ticket = job.ticket := by
    subst hnext
    rfl
  have hnextCall : next.call = job.call := by
    subst hnext
    rfl
  refine ⟨?_, ?_, ?_⟩
  · rw [List.map_append, List.map_cons, hticket, ← List.map_cons, ← List.map_append]
    exact h.orderly
  · intro other hother
    rcases List.mem_append.mp hother with hother | hother
    · exact h.ticket_id other (List.mem_append_left _ hother)
    · rcases List.mem_cons.mp hother with rfl | hother
      · rw [hticket, hnextCall, hid]
      · exact h.ticket_id other (List.mem_append_right _ (List.mem_cons_of_mem _ hother))
  · intro id
    obtain ⟨ended, hcalls, hvalid, hinvalid⟩ := h.entity id
    -- The call is the first for its entity, and the entries of others stay.
    by_cases heq : job.ticket.id = id
    · subst heq
      have hfirst' : jobsOf job.ticket.id (front ++ next :: back)
          = next :: jobsOf job.ticket.id back := by
        rw [jobsOf_append, jobsOf_of_mayPass h.orderly hpass,
          jobsOf_cons_of_eq (congrArg Ticket.id hticket), List.nil_append]
      rw [hfirst] at hcalls hvalid hinvalid
      rw [hfirst']
      refine ⟨ended, ?_, ?_, ?_⟩
      · rw [hcalls, List.map_cons, List.map_cons, hnextCall]
      · intro hvalidId
        obtain ⟨hat, hstart⟩ := hvalid hvalidId
        subst hnext
        exact ⟨hat.step hcall hvalidId hid now, hstart⟩
      · intro hno
        -- A call for what is no id has ended at once and takes no step.
        have hended := (hinvalid hno).2 job List.mem_cons_self
        rw [hresult] at hended
        cases hended
    · have hsame : jobsOf id (front ++ next :: back) = jobsOf id (front ++ job :: back) := by
        have hne : next.ticket.id ≠ id := by
          rw [hticket]
          exact heq
        rw [jobsOf_append, jobsOf_append, jobsOf_cons_of_ne heq, jobsOf_cons_of_ne hne]
      have hentry : (job.call.step now job.phase memory).2.stored? kind id
          = memory.stored? kind id := by
        refine job.call.get?_step now job.phase memory ?_
        intro hkey
        exact heq (hid.symm.trans (congrArg Prod.snd hkey).symm)
      rw [hsame, hentry]
      exact ⟨ended, hcalls, hvalid, hinvalid⟩

/-- A call at work takes a step. -/
theorem next (h : Progress kind before calls lanes (front ++ job :: back) memory)
    (hsound : ∀ call ∈ calls, call.Sound kind) {next : Option (Job α)} {lanes' : Lanes}
    {memory' : Memory} {now : Instant}
    (hnext : job.next? lanes now memory = some (next, lanes', memory')) :
    Progress kind before calls lanes' (front ++ next.toList ++ back) memory' := by
  obtain ⟨hpass, ⟨hresult, rfl, rfl, rfl⟩ | ⟨hresult, rfl, rfl, rfl⟩⟩ := Job.next?_cases hnext
  · rw [Option.toList_none, List.append_nil]
    exact h.leave hsound hpass hresult
  · rw [Option.toList_some, List.append_assoc, List.singleton_append]
    exact h.advance hsound hpass hresult now

/-- The first of all calls at work can take a step. -/
theorem exists_next (h : Progress kind before calls lanes (job :: back) memory) (now : Instant) :
    ∃ next lanes' memory', job.next? lanes now memory = some (next, lanes', memory') := by
  have horderly : lanes.Orderly ([] ++ job.ticket :: back.map Job.ticket) := h.orderly
  -- The first of all calls has the first ticket of its entity.
  rw [Job.next?, if_pos (horderly.mayPass_iff.mpr rfl)]
  cases job.result? with
  | some result => exact ⟨_, _, _, rfl⟩
  | none => exact ⟨_, _, _, rfl⟩

/-- A step of a call changes no entries of other kinds. -/
theorem get?_next (h : Progress kind before calls lanes (front ++ job :: back) memory)
    (hsound : ∀ call ∈ calls, call.Sound kind) {next : Option (Job α)} {lanes' : Lanes}
    {memory' : Memory} {now : Instant}
    (hnext : job.next? lanes now memory = some (next, lanes', memory')) {key : String × String}
    (hkey : key.1 ≠ kind.name) : memory'.snapshots.get? key = memory.snapshots.get? key := by
  have hmem : job ∈ front ++ job :: back := List.mem_append_right _ List.mem_cons_self
  obtain ⟨-, ⟨-, rfl, rfl, rfl⟩ | ⟨-, rfl, rfl, rfl⟩⟩ := Job.next?_cases hnext
  · rfl
  · refine job.call.get?_step now job.phase memory ?_
    rintro rfl
    exact hkey (congrArg EntityKind.name (hsound job.call (h.call_mem hmem)).kind_eq)

/-- When no call is at work, the entry of every entity shows all calls for it. -/
theorem settled (h : Progress kind before calls lanes [] memory) {id : String}
    (hid : EntityId.Valid id) :
    Settled (before.stored? kind id) (callsOf id calls) (memory.stored? kind id) := by
  obtain ⟨ended, hcalls, hvalid, -⟩ := h.entity id
  have hended : callsOf id calls = ended := by
    rw [hcalls]
    exact List.append_nil _
  rw [hended]
  exact hvalid hid

/-- What is no id has no entry but the one that was there. -/
theorem unchanged (h : Progress kind before calls lanes jobs memory) {id : String}
    (hid : ¬ EntityId.Valid id) : memory.stored? kind id = before.stored? kind id := by
  obtain ⟨ended, -, -, hinvalid⟩ := h.entity id
  exact (hinvalid hid).1

end Progress

end Kinds

end FieldTelemetry.Store
