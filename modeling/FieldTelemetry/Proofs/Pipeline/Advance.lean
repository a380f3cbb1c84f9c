import FieldTelemetry.Proofs.Pipeline.Ledger

/-!
# Tasks go on

Whatever backend a pipeline has, the tickets that its lanes hold are those of its tasks, in their
order. So the oldest task never has to wait, and tasks that get their turns come to an end.

## Main definitions

* `ticketsOf`: the tickets of the tasks that update entities of a kind
* `Session.Lined`: the lanes hold the tickets of the tasks
* `Session.advance`: the next step of a task

## Main results

* `Session.Lined.step`: every step of a session keeps the tickets in order
* `Session.Lined.left_advance_lt`: the oldest task goes on whenever it has a turn
-/

namespace FieldTelemetry.Pipeline

open Intake (Request)
open Stamp (StampStore)
open Store (Backend Job Lanes Ticket)
open Time (Instant)

variable {σ τ : Type}

/-! ## Tickets of tasks -/

/-- The tickets of the tasks that update entities of a kind. -/
def ticketsOf (shelf : Shelf) (tasks : List Task) : List Ticket :=
  (tasks.filterMap (Task.job? shelf)).map Job.ticket

section TicketsOf

variable {shelf : Shelf} {task : Task} {front back : List Task}

theorem ticketsOf_append_none {tasks : List Task} (h : ∀ task ∈ tasks, task.job? shelf = none) :
    ticketsOf shelf (front ++ tasks) = ticketsOf shelf front := by
  rw [ticketsOf, filterMap_append_none h, ticketsOf]

theorem ticketsOf_middle_none (h : task.job? shelf = none) :
    ticketsOf shelf (front ++ task :: back) = ticketsOf shelf (front ++ back) := by
  rw [ticketsOf, filterMap_middle_none h, ticketsOf]

theorem ticketsOf_middle (job : Job shelf.State) :
    ticketsOf shelf (front ++ .update shelf job :: back)
      = ticketsOf shelf front ++ job.ticket :: ticketsOf shelf back := by
  rw [ticketsOf, filterMap_middle_some (Task.job?_self shelf job), List.map_append, List.map_cons]
  rfl

theorem ticketsOf_append (shelf : Shelf) (front back : List Task) :
    ticketsOf shelf (front ++ back) = ticketsOf shelf front ++ ticketsOf shelf back := by
  rw [ticketsOf, List.filterMap_append, List.map_append]
  rfl

end TicketsOf

/-! ## What a step of a task leaves as it is -/

namespace Task

variable [Backend σ] {p p' : Pipeline σ τ} {task : Task} {next : Option Task} {now : Instant}

/-- A step of a task changes neither what is pending nor what later work depends on. -/
theorem next?_frame (h : task.next? p now = some (next, p')) :
    p'.attempts = p.attempts ∧ p'.outlets.length = p.outlets.length ∧ p'.pending = p.pending := by
  cases task with
  | «export» number record =>
    cases h
    obtain ⟨-, hdeliver⟩ | ⟨_, _, _, -, -, hdeliver⟩ := Books.deliver_cases p number record
    · rw [hdeliver]
      exact ⟨rfl, rfl, rfl⟩
    · rw [hdeliver]
      exact ⟨rfl, List.length_set, rfl⟩
  | update shelf job =>
    simp only [Task.next?, Option.bind_eq_bind, Option.bind_eq_some_iff] at h
    obtain ⟨⟨rest, lanes, backend⟩, -, ⟨⟩⟩ := h
    -- Counting a failure changes nothing but the counts.
    obtain ⟨state, hstate⟩ := Books.exists_state_countEnded (shelf.put p lanes backend) job
    rw [hstate]
    exact ⟨shelf.attempts_put .., congrArg List.length (shelf.outlets_put ..),
      shelf.pending_put ..⟩
  | _ =>
    cases h
    exact ⟨rfl, rfl, rfl⟩

/-- What the normalizer knows does not depend on tasks, which only count failures. -/
theorem next?_state (h : task.next? p now = some (next, p')) :
    ∃ tally, p'.state = { p.state with tally } := by
  cases task with
  | «export» number record =>
    cases h
    rw [Pipeline.deliver]
    split
    · exact ⟨p.state.tally, rfl⟩
    · dsimp only
      split <;> exact ⟨_, rfl⟩
  | update shelf job =>
    simp only [Task.next?, Option.bind_eq_bind, Option.bind_eq_some_iff] at h
    obtain ⟨⟨rest, lanes, backend⟩, -, ⟨⟩⟩ := h
    have hstate : (shelf.put p lanes backend).state = p.state := by cases shelf <;> rfl
    rw [countEnded, ← hstate]
    split
    · rename_i result _
      cases result <;> exact ⟨_, rfl⟩
    · exact ⟨_, rfl⟩
  | _ =>
    cases h
    exact ⟨p.state.tally, rfl⟩

/-- A task that updates no entity changes no lanes, and ends with its step. -/
theorem next?_of_job?_none (h : task.next? p now = some (next, p'))
    (hnone : ∀ shelf, task.job? shelf = none) :
    next = none ∧ ∀ shelf : Shelf, shelf.lanes p' = shelf.lanes p := by
  cases task with
  | «export» number record =>
    cases h
    refine ⟨rfl, fun shelf => ?_⟩
    obtain ⟨-, hdeliver⟩ | ⟨_, _, _, -, -, hdeliver⟩ := Books.deliver_cases p number record
    · rw [hdeliver]
    · rw [hdeliver]
      cases shelf <;> rfl
  | update shelf job =>
    have hself := hnone shelf
    rw [job?_self] at hself
    cases hself
  | _ =>
    cases h
    exact ⟨rfl, fun shelf => by cases shelf <;> rfl⟩

end Task

namespace Session

/-! ## Tickets in order -/

/-- The lanes hold the tickets of the tasks, in the order of the tasks, and nothing is handed out
but to tasks. -/
structure Lined (s : Session σ τ) : Prop where
  /-- The lanes of every kind hold the tickets of its updates. -/
  orderly : ∀ shelf : Shelf, (shelf.lanes s.pipeline).Orderly (ticketsOf shelf s.tasks)
  /-- Nothing is handed out but to tasks. -/
  pending : s.pipeline.pending = []

namespace Lined

variable {p p' : Pipeline σ τ} {due : List Part} {tasks front back : List Task} {task : Task}
  {log : List (Request × Outcome)} {now : Instant}

/-- The lanes of a new pipeline hold no tickets. -/
theorem start (hlanes : ∀ shelf : Shelf, shelf.lanes p = {}) (hpending : p.pending = []) :
    Lined (⟨p, [], [], []⟩ : Session σ τ) := by
  refine ⟨fun shelf => ?_, hpending⟩
  rw [hlanes shelf]
  exact .empty

/-- Tasks are added that update no entity. -/
theorem add (h : Lined ⟨p, due, tasks, log⟩) {due' : List Part} {more : List Task}
    (hlanes : ∀ shelf : Shelf, shelf.lanes p' = shelf.lanes p) (hpending : p'.pending = [])
    (hnone : ∀ task ∈ more, ∀ shelf, task.job? shelf = none) :
    Lined ⟨p', due', tasks ++ more, log⟩ := by
  refine ⟨fun shelf => ?_, hpending⟩
  rw [hlanes shelf, ticketsOf_append_none fun task hmem => hnone task hmem shelf]
  exact h.orderly shelf

/-- An update takes the next ticket of its entity. -/
theorem queue (h : Lined ⟨p, due, tasks, log⟩) {due' : List Part} (shelf : Shelf)
    (call : Store.Call shelf.State) :
    Lined ⟨{ shelf.put p (call.queue (shelf.lanes p)).2 p.backend with pending := [] }, due',
      tasks ++ [.update shelf (call.queue (shelf.lanes p)).1.job], log⟩ := by
  refine ⟨fun other => ?_, rfl⟩
  have hlanes : other.lanes
      { shelf.put p (call.queue (shelf.lanes p)).2 p.backend with pending := [] }
        = other.lanes (shelf.put p (call.queue (shelf.lanes p)).2 p.backend) := by
    cases other <;> rfl
  dsimp only
  rw [hlanes]
  by_cases heq : other = shelf
  · subst heq
    rw [Shelf.lanes_put, ticketsOf_middle]
    exact (h.orderly other).take call.id
  · rw [Shelf.lanes_put_of_ne _ _ _ _ heq,
      ticketsOf_middle_none (Task.job?_of_ne (Ne.symm heq) _), List.append_nil]
    exact h.orderly other

/-- A part is handed out. -/
theorem handOut (h : Lined ⟨p, due, tasks, log⟩) {due' : List Part} (part : Part) :
    Lined (handedOut (part.handOut p now) due' tasks log) := by
  have hpending : p.pending = [] := h.pending
  -- Texts for the operators are the only tasks that sightings give rise to.
  have hnotify (devices gateways : Watch.Tracker) (alerts : List Watch.Alert) :
      Lined (handedOut (Pipeline.notify { p with devices, gateways } alerts) due' tasks log) := by
    refine h.add (fun shelf => by cases shelf <;> rfl) rfl ?_
    intro task htask shelf
    rw [Pipeline.notify, Pipeline.add, hpending, List.nil_append, List.map_map] at htask
    obtain ⟨alert, -, rfl⟩ := List.mem_map.mp htask
    rfl
  have hwork {work : Work} (hnone : ∀ shelf, work.task.job? shelf = none) :
      Lined (handedOut (p.add [work]) due' tasks log) := by
    refine h.add (fun shelf => by cases shelf <;> rfl) rfl ?_
    intro task htask
    rw [Pipeline.add, hpending, List.nil_append, List.map_singleton, List.mem_singleton] at htask
    exact htask ▸ hnone
  cases part with
  | seeDevice id seen => exact hnotify _ p.gateways _
  | seeGateway id seen => exact hnotify p.devices _ _
  | update shelf call =>
    have htask : (shelf.work (call.queue (shelf.lanes p)).1).task
        = .update shelf (call.queue (shelf.lanes p)).1.job := by
      cases shelf <;> rfl
    rw [Part.handOut, handedOut]
    dsimp only
    rw [Pipeline.add, shelf.pending_put, hpending, List.nil_append, List.map_singleton, htask]
    exact h.queue shelf call
  | «export» number record => exact hwork fun _ => rfl
  | command c => exact hwork fun _ => rfl

variable [Backend σ]

/-- A call that has ended gives its ticket back, and any other keeps it. -/
theorem update {shelf : Shelf} {job : Job shelf.State}
    (h : Lined ⟨p, due, front ++ .update shelf job :: back, log⟩) {next : Option (Job shelf.State)}
    {lanes : Lanes} {backend : σ}
    (hnext : job.next? (shelf.lanes p) now p.backend = some (next, lanes, backend)) :
    Lined ⟨Task.countEnded (shelf.put p lanes backend) job, due,
      front ++ (next.map (Task.update shelf)).toList ++ back, log⟩ := by
  obtain ⟨state, hstate⟩ := Books.exists_state_countEnded (shelf.put p lanes backend) job
  have hpending : (shelf.put p lanes backend).pending = [] := by
    rw [shelf.pending_put]
    exact h.pending
  rw [hstate]
  refine ⟨fun other => ?_, hpending⟩
  have hlanes : other.lanes { shelf.put p lanes backend with state }
      = other.lanes (shelf.put p lanes backend) := by
    cases other <;> rfl
  have horderly := h.orderly other
  dsimp only at horderly ⊢
  rw [hlanes]
  by_cases heq : other = shelf
  · subst heq
    rw [ticketsOf_middle] at horderly
    rw [Shelf.lanes_put]
    obtain ⟨hpass, ⟨-, rfl, rfl, -⟩ | ⟨-, rfl, rfl, -⟩⟩ := Job.next?_cases hnext
    · rw [Option.map_none, Option.toList_none, List.append_nil, ticketsOf_append]
      exact horderly.giveBack hpass
    · rw [Option.map_some, Option.toList_some, List.append_assoc, List.singleton_append,
        ticketsOf_middle]
      exact horderly
  · -- Other kinds have lanes of their own.
    have hnone (job : Job shelf.State) := Task.job?_of_ne (Ne.symm heq) job
    rw [ticketsOf_middle_none (hnone job)] at horderly
    rw [Shelf.lanes_put_of_ne _ _ _ _ heq]
    cases next with
    | none =>
      rw [Option.map_none, Option.toList_none, List.append_nil]
      exact horderly
    | some job =>
      rw [Option.map_some, Option.toList_some, List.append_assoc, List.singleton_append,
        ticketsOf_middle_none (hnone job)]
      exact horderly

/-- A step of a task keeps the tickets in order. -/
theorem taskStep {s s' : Session σ τ} (h : Lined s) (hstep : TaskStep s s') : Lined s' := by
  obtain ⟨hnext⟩ := hstep
  rename_i p p' due front back task next now log
  by_cases hnone : ∀ shelf, task.job? shelf = none
  · obtain ⟨rfl, hlanes⟩ := Task.next?_of_job?_none hnext hnone
    refine ⟨fun shelf => ?_, (Task.next?_frame hnext).2.2.trans h.pending⟩
    have horderly := h.orderly shelf
    dsimp only at horderly ⊢
    rw [ticketsOf_middle_none (hnone shelf)] at horderly
    rw [hlanes shelf, Option.toList_none, List.append_nil]
    exact horderly
  · cases task with
    | update shelf job =>
      simp only [Task.next?, Option.bind_eq_bind, Option.bind_eq_some_iff] at hnext
      obtain ⟨⟨rest, lanes, backend⟩, hjob, ⟨⟩⟩ := hnext
      exact h.update hjob
    | _ => exact absurd (fun _ => rfl) hnone

/-- Every step of a session keeps the tickets in order. -/
theorem step [StampStore τ] {s s' : Session σ τ} (h : Lined s) (hstep : Step s s') : Lined s' := by
  cases hstep with
  | process hprocess =>
    refine ⟨fun shelf => ?_, h.pending⟩
    have horderly := h.orderly shelf
    cases shelf <;> exact horderly
  | handOut => exact h.handOut _
  | task hstep => exact h.taskStep hstep

theorem run [StampStore τ] {s s' : Session σ τ} (h : Lined s)
    (hsteps : Relation.ReflTransGen Step s s') : Lined s' := by
  induction hsteps with
  | refl => exact h
  | tail _ hstep ih => exact ih.step hstep

/-- The oldest task has not to wait. -/
theorem exists_next (h : Lined ⟨p, due, task :: back, log⟩) (now : Instant) :
    ∃ next p', task.next? p now = some (next, p') := by
  cases task with
  | update shelf job =>
    have horderly := h.orderly shelf
    have hfirst : ticketsOf shelf ([] ++ .update shelf job :: back)
        = [] ++ job.ticket :: ticketsOf shelf back := ticketsOf_middle job
    rw [List.nil_append] at hfirst
    dsimp only at horderly
    rw [hfirst] at horderly
    have hpass := horderly.mayPass_iff.mpr rfl
    cases hresult : job.result? with
    | some result => exact ⟨_, _, Task.next?_of_some now hpass hresult⟩
    | none => exact ⟨_, _, Task.next?_of_none now hpass hresult⟩
  | _ => exact ⟨_, _, rfl⟩

end Lined

/-! ## Turns of tasks -/

variable [Backend σ] {s s' : Session σ τ}

/-- The next step of the task at a position, if there is one that has not to wait. -/
def advance (s : Session σ τ) (position : Nat) (now : Instant) : Session σ τ :=
  match s.tasks[position]? with
  | none => s
  | some task =>
    match task.next? s.pipeline now with
    | none => s
    | some (next, p) =>
      { s with
        pipeline := p
        tasks := s.tasks.take position ++ next.toList ++ s.tasks.drop (position + 1) }

theorem advance_cases (s : Session σ τ) (position : Nat) (now : Instant) :
    s.advance position now = s ∨ TaskStep s (s.advance position now) := by
  obtain ⟨p, due, tasks, log⟩ := s
  rw [advance]
  dsimp only
  cases htask : tasks[position]? with
  | none => exact .inl rfl
  | some task =>
    dsimp only
    cases hnext : task.next? p now with
    | none => exact .inl rfl
    | some result =>
      obtain ⟨next, p'⟩ := result
      obtain ⟨hlt, rfl⟩ := List.getElem?_eq_some_iff.mp htask
      have hsplit :
          tasks.take position ++ tasks[position] :: tasks.drop (position + 1) = tasks := by
        rw [← List.drop_eq_getElem_cons hlt, List.take_append_drop]
      have hstep : TaskStep
          ⟨p, due, tasks.take position ++ tasks[position] :: tasks.drop (position + 1), log⟩
          ⟨p', due, tasks.take position ++ next.toList ++ tasks.drop (position + 1), log⟩ :=
        .next hnext
      rw [hsplit] at hstep
      exact .inr hstep

theorem TaskStep.frame (hstep : TaskStep s s') : s'.due = s.due ∧ s'.log = s.log := by
  obtain ⟨_⟩ := hstep
  exact ⟨rfl, rfl⟩

theorem TaskStep.pipeline_frame (hstep : TaskStep s s') :
    s'.pipeline.attempts = s.pipeline.attempts
      ∧ s'.pipeline.outlets.length = s.pipeline.outlets.length := by
  obtain ⟨hnext⟩ := hstep
  obtain ⟨hattempts, houtlets, -⟩ := Task.next?_frame hnext
  exact ⟨hattempts, houtlets⟩

theorem TaskStep.exists_tally (hstep : TaskStep s s') :
    ∃ tally, s'.pipeline.state = { s.pipeline.state with tally } := by
  obtain ⟨hnext⟩ := hstep
  exact Task.next?_state hnext

theorem TaskStep.tasks_ne_nil (hstep : TaskStep s s') : s.tasks ≠ [] := by
  obtain ⟨_⟩ := hstep
  simp

/-- Every step of a task is one of the task at some position. -/
theorem TaskStep.exists_advance (h : TaskStep s s') :
    ∃ position now, s.advance position now = s' := by
  obtain ⟨hnext⟩ := h
  rename_i p p' due front back task next now log
  refine ⟨front.length, now, ?_⟩
  have htask : (front ++ task :: back)[front.length]? = some task := by simp
  have hback : (front ++ task :: back).drop (front.length + 1) = back := by simp
  rw [advance]
  dsimp only
  rw [htask]
  dsimp only
  rw [hnext]
  dsimp only
  rw [hback, List.take_left]

/-- The oldest task goes on whenever it has a turn. -/
theorem Lined.left_advance_lt (h : Lined s) (htasks : s.tasks ≠ []) (now : Instant) :
    (s.advance 0 now).left < s.left := by
  obtain ⟨p, due, tasks, log⟩ := s
  cases tasks with
  | nil => exact absurd rfl htasks
  | cons task back =>
    obtain ⟨next, p', hnext⟩ := h.exists_next now
    have hadvance : advance ⟨p, due, task :: back, log⟩ 0 now
        = ⟨p', due, next.toList ++ back, log⟩ := by
      rw [advance]
      dsimp only [List.getElem?_cons_zero]
      rw [hnext]
      rfl
    have hstep : TaskStep ⟨p, due, [] ++ task :: back, log⟩
        ⟨p', due, [] ++ next.toList ++ back, log⟩ := .next hnext
    rw [hadvance]
    exact hstep.left_lt

omit [Backend σ] in
/-- No step is left exactly when no task is. -/
theorem left_eq_zero_iff : s.left = 0 ↔ s.tasks = [] := by
  have hpos (task : Task) : task.left ≠ 0 := by
    cases task with
    | update shelf job => exact Nat.succ_ne_zero _
    | _ => exact Nat.one_ne_zero
  cases htasks : s.tasks with
  | nil => simp [left, htasks]
  | cons task back => simp [left, htasks, hpos task]

end Session

end FieldTelemetry.Pipeline
