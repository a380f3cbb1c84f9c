import FieldTelemetry.Proofs.Pipeline.Schedule

/-!
# What becomes of handed out work

A ledger notes the parts that have been handed out. In every session each update, each reading for a
sink and each command of the ledger stands for something that has been done or for a task that is at
work, and nothing else has been done.

## Main definitions

* `Books`: a session in which all parts of a ledger are accounted for
* `Noted`: books with the pending work of the pipeline

## Main results

* `Noted.handOut`: a part that is handed out is noted
* `Books.next`: a step of a task keeps the books
-/

namespace FieldTelemetry

namespace Delivery

/-- The channel and its sink after a delivery. -/
def Outlet.receive (outlet : Outlet) (record : SensorRecord) : Outlet :=
  (outlet.send {} record).2.1

/-- The channel and its sink after several deliveries. -/
def Outlet.receiveAll (outlet : Outlet) (records : List SensorRecord) : Outlet :=
  records.foldl receive outlet

/-- A sink that takes every reading in time. -/
def Outlet.Working (outlet : Outlet) : Prop :=
  outlet.recorder.delay.any (outlet.channel.timeout < ·) = false ∧ outlet.recorder.failing = false

theorem Outlet.receive_of_working {outlet : Outlet} (h : outlet.Working) (record : SensorRecord) :
    outlet.receive record = ⟨{ outlet.channel with run := 0 },
      { outlet.recorder with records := outlet.recorder.records ++ [record] }⟩ := by
  have hdelivered : outlet.recorder.deliverWithin outlet.channel.timeout record
      = (.ok (), { outlet.recorder with records := outlet.recorder.records ++ [record] }) := by
    obtain ⟨hdelay, hfailing⟩ := h
    rw [Recorder.deliverWithin, if_neg (by rw [hdelay]; exact Bool.false_ne_true),
      if_neg (by rw [hfailing]; exact Bool.false_ne_true)]
  rw [receive, send, hdelivered]
  rfl

/-- A sink that takes every reading in time has all that it has received. -/
theorem Outlet.records_receiveAll {outlet : Outlet} (h : outlet.Working)
    (records : List SensorRecord) :
    (outlet.receiveAll records).recorder.records = outlet.recorder.records ++ records := by
  induction records generalizing outlet with
  | nil => exact (List.append_nil _).symm
  | cons record records ih =>
    have hreceived := outlet.receive_of_working h record
    have hworking : (outlet.receive record).Working := by
      rw [hreceived]
      exact h
    have hrest := ih hworking
    rw [hreceived, List.append_assoc] at hrest
    rw [receiveAll, List.foldl_cons, ← receiveAll, hreceived, hrest]
    rfl

theorem Outlet.send_eq (outlet : Outlet) (desk : Desk) (record : SensorRecord) :
    (outlet.send desk record).2.1 = outlet.receive record := rfl

theorem Outlet.commands_send (outlet : Outlet) (desk : Desk) (record : SensorRecord) :
    (outlet.send desk record).2.2.commands = desk.commands := by
  rw [send]
  dsimp only
  -- A text about failures goes to the alerts.
  generalize (outlet.channel.count _).1 = text
  cases text <;> rfl

end Delivery

namespace Pipeline

open Delivery (Command Outlet)
open Intake (Request)
open Store (Call EntityKind Job Lanes Memory Origin Progress)
open Time (Instant)

/-! ## Notes -/

namespace Part

/-- The update of an entity of a kind. -/
def call? (shelf : Shelf) : Part → Option (Call shelf.State)
  | .update other call => if h : other = shelf then some (h ▸ call) else none
  | _ => none

/-- The reading for the sink with a number. -/
def exportTo? (number : Nat) : Part → Option SensorRecord
  | .export outlet record => if outlet = number then some record else none
  | _ => none

/-- The command. -/
def command? : Part → Option Command
  | .command c => some c
  | _ => none

theorem exportTo?_self (number : Nat) (record : SensorRecord) :
    (Part.export number record).exportTo? number = some record := if_pos rfl

theorem exportTo?_of_ne {outlet number : Nat} (h : outlet ≠ number) (record : SensorRecord) :
    (Part.export outlet record).exportTo? number = none := if_neg h

theorem command?_self (c : Command) : (command c).command? = some c := rfl

theorem call?_self (shelf : Shelf) (call : Call shelf.State) :
    (update shelf call).call? shelf = some call := dif_pos rfl

theorem call?_of_ne {shelf other : Shelf} (h : other ≠ shelf) (call : Call other.State) :
    (update other call).call? shelf = none := dif_neg h

end Part

namespace Task

/-- The call of an update of an entity of a kind. -/
def job? (shelf : Shelf) : Task → Option (Job shelf.State)
  | .update other job => if h : other = shelf then some (h ▸ job) else none
  | _ => none

/-- The reading for the sink with a number. -/
def exportTo? (number : Nat) : Task → Option SensorRecord
  | .export outlet record => if outlet = number then some record else none
  | _ => none

/-- The command. -/
def command? : Task → Option Command
  | .command c => some c
  | _ => none

theorem exportTo?_self (number : Nat) (record : SensorRecord) :
    (Task.export number record).exportTo? number = some record := if_pos rfl

theorem exportTo?_of_ne {outlet number : Nat} (h : outlet ≠ number) (record : SensorRecord) :
    (Task.export outlet record).exportTo? number = none := if_neg h

theorem command?_self (c : Command) : (command c).command? = some c := rfl

theorem job?_self (shelf : Shelf) (job : Job shelf.State) :
    (update shelf job).job? shelf = some job := dif_pos rfl

theorem job?_of_ne {shelf other : Shelf} (h : other ≠ shelf) (job : Job other.State) :
    (update other job).job? shelf = none := dif_neg h

end Task

/-! ## Books -/

variable {τ : Type}

/-- All parts of a ledger have been done since a start, or a task is at work on them. -/
structure Books (start : Pipeline Memory τ) (ledger : List Part) (p : Pipeline Memory τ)
    (tasks : List Task) : Prop where
  /-- Calls try as often as at the start. -/
  attempts_eq : p.attempts = start.attempts
  /-- The updates of every kind have ended or are at work. -/
  updates : ∀ shelf : Shelf, Progress shelf.kind start.backend
    (ledger.filterMap (Part.call? shelf)) (shelf.lanes p) (tasks.filterMap (Task.job? shelf))
    p.backend
  /-- Entries of other kinds do not change. -/
  others : ∀ key : String × String, (∀ shelf : Shelf, key.1 ≠ shelf.kind.name) →
    p.backend.snapshots.get? key = start.backend.snapshots.get? key
  /-- No sink is added or dropped. -/
  length_outlets : p.outlets.length = start.outlets.length
  /-- Every sink has got the readings for it that no task is at work on. -/
  outlets : ∀ (number : Nat) (outlet : Outlet), start.outlets[number]? = some outlet →
    ∃ sent, p.outlets[number]? = some (outlet.receiveAll sent)
      ∧ (sent ++ tasks.filterMap (Task.exportTo? number)).Perm
        (ledger.filterMap (Part.exportTo? number))
  /-- The operators have got the commands that no task is at work on. -/
  commands : ∃ sent, p.desk.commands = start.desk.commands ++ sent
    ∧ (sent ++ tasks.filterMap Task.command?).Perm (ledger.filterMap Part.command?)

/-- The updates of a ledger can be stored. -/
def Sound (ledger : List Part) : Prop :=
  ∀ (shelf : Shelf) (call : Call shelf.State), .update shelf call ∈ ledger → call.Sound shelf.kind

theorem Sound.of_call? {ledger : List Part} (h : Sound ledger) (shelf : Shelf) :
    ∀ call ∈ ledger.filterMap (Part.call? shelf), call.Sound shelf.kind := by
  intro call hcall
  obtain ⟨part, hpart, hpick⟩ := List.mem_filterMap.mp hcall
  cases part with
  | update other call' =>
    rw [Part.call?] at hpick
    -- Only an update of the kind is picked.
    split at hpick
    · rename_i heq
      subst heq
      cases hpick
      exact h other call' hpart
    · cases hpick
  | _ => cases hpick

section FilterMap

variable {α β : Type} {pick : α → Option β} {a : α}

theorem filterMap_concat_none (h : pick a = none) (l : List α) :
    (l ++ [a]).filterMap pick = l.filterMap pick := by
  rw [List.filterMap_append, List.filterMap_cons_none h, List.filterMap_nil, List.append_nil]

theorem filterMap_concat_some {b : β} (h : pick a = some b) (l : List α) :
    (l ++ [a]).filterMap pick = l.filterMap pick ++ [b] := by
  rw [List.filterMap_append, List.filterMap_cons_some h, List.filterMap_nil]

theorem filterMap_append_none {l' : List α} (h : ∀ a ∈ l', pick a = none) (l : List α) :
    (l ++ l').filterMap pick = l.filterMap pick := by
  rw [List.filterMap_append, List.filterMap_eq_nil_iff.mpr h, List.append_nil]

theorem filterMap_middle_none (h : pick a = none) (front back : List α) :
    (front ++ a :: back).filterMap pick = (front ++ back).filterMap pick := by
  rw [List.filterMap_append, List.filterMap_cons_none h, ← List.filterMap_append]

theorem filterMap_middle_some {b : β} (h : pick a = some b) (front back : List α) :
    (front ++ a :: back).filterMap pick = front.filterMap pick ++ b :: back.filterMap pick := by
  rw [List.filterMap_append, List.filterMap_cons_some h]

end FilterMap

namespace Books

variable {start p p' : Pipeline Memory τ} {ledger : List Part} {tasks front back : List Task}
  {task : Task}

/-! ### Work is handed out -/

/-- Books do not show trackers, counts and what is pending. -/
theorem congr (h : Books start ledger p tasks) (state : Normalizer.State τ)
    (devices gateways : Watch.Tracker) (pending : List Work) :
    Books start ledger { p with state, devices, gateways, pending } tasks where
  attempts_eq := h.attempts_eq
  updates shelf := by
    have hlanes : shelf.lanes { p with state, devices, gateways, pending } = shelf.lanes p := by
      cases shelf <;> rfl
    rw [hlanes]
    exact h.updates shelf
  others := h.others
  length_outlets := h.length_outlets
  outlets := h.outlets
  commands := h.commands

/-- Parts that are no work do not matter. -/
theorem see (h : Books start ledger p tasks) {part : Part}
    (hcall : ∀ shelf, part.call? shelf = none)
    (hexport : ∀ number, part.exportTo? number = none) (hcommand : part.command? = none) :
    Books start (ledger ++ [part]) p tasks := by
  refine ⟨h.attempts_eq, ?_, h.others, h.length_outlets, ?_, ?_⟩
  · intro shelf
    rw [filterMap_concat_none (hcall shelf)]
    exact h.updates shelf
  · intro number
    rw [filterMap_concat_none (hexport number)]
    exact h.outlets number
  · rw [filterMap_concat_none hcommand]
    exact h.commands

/-- Texts for the operators are not noted. -/
theorem alert (h : Books start ledger p tasks) (texts : List String) :
    Books start ledger p (tasks ++ texts.map Task.alert) := by
  have hnone {α : Type} (pick : Task → Option α) (hpick : ∀ text, pick (.alert text) = none) :
      (tasks ++ texts.map Task.alert).filterMap pick = tasks.filterMap pick := by
    apply filterMap_append_none
    intro task htask
    obtain ⟨text, -, rfl⟩ := List.mem_map.mp htask
    exact hpick text
  refine ⟨h.attempts_eq, ?_, h.others, h.length_outlets, ?_, ?_⟩
  · intro shelf
    rw [hnone _ fun _ => rfl]
    exact h.updates shelf
  · intro number
    rw [hnone _ fun _ => rfl]
    exact h.outlets number
  · rw [hnone _ fun _ => rfl]
    exact h.commands

/-- An update of an entity is queued. -/
theorem queue (h : Books start ledger p tasks) {shelf : Shelf} {call : Call shelf.State}
    (hcall : call.Sound shelf.kind) :
    Books start (ledger ++ [.update shelf call])
      (shelf.put p (call.queue (shelf.lanes p)).2 p.backend)
      (tasks ++ [.update shelf (call.queue (shelf.lanes p)).1.job]) := by
  refine ⟨?_, ?_, ?_, ?_, ?_, ?_⟩
  · rw [Shelf.attempts_put]
    exact h.attempts_eq
  · intro other
    rw [Shelf.backend_put]
    -- The call is one of its own kind only.
    by_cases heq : other = shelf
    · subst heq
      rw [Shelf.lanes_put, filterMap_concat_some (Part.call?_self other call),
        filterMap_concat_some (Task.job?_self other _)]
      exact (h.updates other).queue hcall
    · rw [Shelf.lanes_put_of_ne _ _ _ _ heq,
        filterMap_concat_none (Part.call?_of_ne (Ne.symm heq) call),
        filterMap_concat_none (Task.job?_of_ne (Ne.symm heq) _)]
      exact h.updates other
  · rw [Shelf.backend_put]
    exact h.others
  · rw [Shelf.outlets_put]
    exact h.length_outlets
  · intro number
    rw [Shelf.outlets_put, filterMap_concat_none rfl, filterMap_concat_none rfl]
    exact h.outlets number
  · rw [Shelf.desk_put, filterMap_concat_none rfl, filterMap_concat_none rfl]
    exact h.commands

/-- A reading is to go to a sink. -/
theorem exportTo (h : Books start ledger p tasks) (number : Nat) (record : SensorRecord) :
    Books start (ledger ++ [.export number record]) p (tasks ++ [.export number record]) := by
  refine ⟨h.attempts_eq, ?_, h.others, h.length_outlets, ?_, ?_⟩
  · intro shelf
    rw [filterMap_concat_none rfl, filterMap_concat_none rfl]
    exact h.updates shelf
  · intro other outlet houtlet
    obtain ⟨sent, hsent, hperm⟩ := h.outlets other outlet houtlet
    refine ⟨sent, hsent, ?_⟩
    -- Other sinks have nothing to do with it.
    by_cases heq : number = other
    · subst heq
      rw [filterMap_concat_some (Part.exportTo?_self number record),
        filterMap_concat_some (Task.exportTo?_self number record), ← List.append_assoc]
      exact hperm.append_right _
    · rw [filterMap_concat_none (Part.exportTo?_of_ne heq record),
        filterMap_concat_none (Task.exportTo?_of_ne heq record)]
      exact hperm
  · rw [filterMap_concat_none rfl, filterMap_concat_none rfl]
    exact h.commands

/-- A command is handed out. -/
theorem command (h : Books start ledger p tasks) (command : Command) :
    Books start (ledger ++ [.command command]) p (tasks ++ [.command command]) := by
  refine ⟨h.attempts_eq, ?_, h.others, h.length_outlets, ?_, ?_⟩
  · intro shelf
    rw [filterMap_concat_none rfl, filterMap_concat_none rfl]
    exact h.updates shelf
  · intro number
    rw [filterMap_concat_none rfl, filterMap_concat_none rfl]
    exact h.outlets number
  · obtain ⟨sent, hdesk, hperm⟩ := h.commands
    refine ⟨sent, hdesk, ?_⟩
    rw [filterMap_concat_some (Part.command?_self command),
      filterMap_concat_some (Task.command?_self command), ← List.append_assoc]
    exact hperm.append_right _

/-! ### Tasks take steps -/

/-- What a delivery changes. -/
theorem deliver_cases {σ : Type} (p : Pipeline σ τ) (number : Nat) (record : SensorRecord) :
    (p.outlets[number]? = none ∧ p.deliver number record = p)
      ∨ ∃ outlet desk state, p.outlets[number]? = some outlet ∧ desk.commands = p.desk.commands
        ∧ p.deliver number record
          = { p with desk, state, outlets := p.outlets.set number (outlet.receive record) } := by
  rw [Pipeline.deliver]
  cases houtlet : p.outlets[number]? with
  | none => exact .inl ⟨rfl, rfl⟩
  | some outlet =>
    have hreceive := outlet.send_eq p.desk record
    have hcommands := outlet.commands_send p.desk record
    dsimp only
    generalize outlet.send p.desk record = sent at hreceive hcommands
    obtain ⟨result, outlet', desk⟩ := sent
    dsimp only at hreceive hcommands
    subst hreceive
    cases result with
    | ok _ => exact .inr ⟨outlet, desk, p.state, rfl, hcommands, rfl⟩
    | error _ => exact .inr ⟨outlet, desk, (p.bump .exportFailures).state, rfl, hcommands, rfl⟩

/-- Books of a pipeline after a step that was not one of an update. -/
theorem of_desk {tasks' : List Task} (h : Books start ledger p tasks) (state : Normalizer.State τ)
    (desk : Delivery.Desk) (outlets : List Outlet)
    (hjobs : ∀ shelf, tasks'.filterMap (Task.job? shelf) = tasks.filterMap (Task.job? shelf))
    (hlength : outlets.length = p.outlets.length)
    (houtlets : ∀ (number : Nat) (outlet : Outlet), start.outlets[number]? = some outlet →
      ∃ sent, outlets[number]? = some (outlet.receiveAll sent)
        ∧ (sent ++ tasks'.filterMap (Task.exportTo? number)).Perm
          (ledger.filterMap (Part.exportTo? number)))
    (hcommands : ∃ sent, desk.commands = start.desk.commands ++ sent
      ∧ (sent ++ tasks'.filterMap Task.command?).Perm (ledger.filterMap Part.command?)) :
    Books start ledger { p with state, desk, outlets } tasks' where
  attempts_eq := h.attempts_eq
  updates shelf := by
    have hlanes : shelf.lanes { p with state, desk, outlets } = shelf.lanes p := by
      cases shelf <;> rfl
    rw [hlanes, hjobs]
    exact h.updates shelf
  others := h.others
  length_outlets := hlength.trans h.length_outlets
  outlets := houtlets
  commands := hcommands

theorem next_command (h : Books start ledger p (front ++ .command c :: back)) :
    Books start ledger { p with desk := p.desk.deliver c } (front ++ back) := by
  refine h.of_desk p.state _ p.outlets ?_ rfl ?_ ?_
  · intro shelf
    exact (filterMap_middle_none rfl front back).symm
  · intro number
    rw [← filterMap_middle_none (a := Task.command c) rfl front back]
    exact h.outlets number
  · obtain ⟨sent, hdesk, hperm⟩ := h.commands
    rw [filterMap_middle_some (Task.command?_self c)] at hperm
    -- The command moves from the tasks to what the operators have got.
    refine ⟨sent ++ [c], ?_, ?_⟩
    · rw [Delivery.Desk.deliver, hdesk, List.append_assoc]
    · rw [List.filterMap_append]
      refine .trans ?_ hperm
      rw [List.append_assoc, List.singleton_append]
      exact (List.perm_middle.symm).append_left sent

theorem next_export {number : Nat} {record : SensorRecord}
    (h : Books start ledger p (front ++ .export number record :: back)) :
    Books start ledger (p.deliver number record) (front ++ back) := by
  have hjobs (shelf : Shelf) : (front ++ back).filterMap (Task.job? shelf)
      = (front ++ .export number record :: back).filterMap (Task.job? shelf) :=
    (filterMap_middle_none rfl front back).symm
  have hcommands := h.commands
  rw [filterMap_middle_none rfl] at hcommands
  obtain ⟨hnone, hdeliver⟩ | ⟨outlet, desk, state, hsome, hdesk, hdeliver⟩ :=
    deliver_cases p number record
  · rw [hdeliver]
    refine h.of_desk p.state p.desk p.outlets hjobs rfl ?_ hcommands
    intro other outlet houtlet
    obtain ⟨sent, hsent, hperm⟩ := h.outlets other outlet houtlet
    -- There is no sink with the number.
    have hne : number ≠ other := by
      rintro rfl
      rw [hnone] at hsent
      cases hsent
    rw [filterMap_middle_none (Task.exportTo?_of_ne hne record)] at hperm
    exact ⟨sent, hsent, hperm⟩
  · rw [hdeliver]
    refine h.of_desk state desk _ hjobs List.length_set ?_ ?_
    · intro other first hfirst
      obtain ⟨sent, hsent, hperm⟩ := h.outlets other first hfirst
      by_cases heq : number = other
      · subst heq
        rw [filterMap_middle_some (Task.exportTo?_self number record)] at hperm
        -- The reading moves from the tasks to what the sink has got.
        refine ⟨sent ++ [record], ?_, ?_⟩
        · rw [hsome] at hsent
          cases hsent
          rw [List.getElem?_set_self (List.getElem?_eq_some_iff.mp hsome).1, Outlet.receiveAll,
            Outlet.receiveAll, List.foldl_append]
          rfl
        · rw [List.filterMap_append, List.append_assoc, List.singleton_append]
          exact (List.perm_middle.symm.append_left sent).trans hperm
      · rw [filterMap_middle_none (Task.exportTo?_of_ne heq record)] at hperm
        refine ⟨sent, ?_, hperm⟩
        rw [List.getElem?_set_ne heq]
        exact hsent
    · rw [hdesk]
      exact hcommands

theorem exists_state_countEnded {σ α : Type} (p : Pipeline σ τ) (job : Job α) :
    ∃ state, Task.countEnded p job = { p with state } := by
  rw [Task.countEnded]
  split
  · rename_i result _
    cases result with
    | ok _ => exact ⟨p.state, rfl⟩
    | error _ => exact ⟨(p.bump .storeFailures).state, rfl⟩
  · exact ⟨p.state, rfl⟩

theorem next_update {shelf : Shelf} {job : Job shelf.State}
    (h : Books start ledger p (front ++ .update shelf job :: back)) (hsound : Sound ledger)
    {next : Option (Job shelf.State)} {lanes : Lanes} {memory : Memory} {now : Instant}
    (hnext : job.next? (shelf.lanes p) now p.backend = some (next, lanes, memory)) :
    Books start ledger (Task.countEnded (shelf.put p lanes memory) job)
      (front ++ (next.map (Task.update shelf)).toList ++ back) := by
  have hprogress := h.updates shelf
  rw [filterMap_middle_some (Task.job?_self shelf job)] at hprogress
  have hentries {key : String × String} (hkey : key.1 ≠ shelf.kind.name) :=
    hprogress.get?_next (hsound.of_call? shelf) hnext hkey
  -- Among the calls of the kind, this one goes on or is gone.
  have hself : (front ++ (next.map (Task.update shelf)).toList ++ back).filterMap
      (Task.job? shelf) = front.filterMap (Task.job? shelf) ++ next.toList
        ++ back.filterMap (Task.job? shelf) := by
    rw [List.filterMap_append, List.filterMap_append]
    cases next with
    | none => rfl
    | some job => rw [Option.map_some, Option.toList_some, Option.toList_some,
        List.filterMap_cons_some (Task.job?_self shelf job), List.filterMap_nil]
  -- What is picked besides calls of the kind does not change.
  have hnone {α : Type} (pick : Task → Option α) (hpick : ∀ job, pick (.update shelf job) = none) :
      (front ++ (next.map (Task.update shelf)).toList ++ back).filterMap pick
        = (front ++ .update shelf job :: back).filterMap pick := by
    rw [filterMap_middle_none (hpick job), List.filterMap_append, List.filterMap_append,
      List.filterMap_append]
    cases next with
    | none => rw [Option.map_none, Option.toList_none, List.filterMap_nil, List.append_nil]
    | some job => rw [Option.map_some, Option.toList_some, List.filterMap_cons_none (hpick job),
        List.filterMap_nil, List.append_nil]
  have hbooks : Books start ledger (shelf.put p lanes memory)
      (front ++ (next.map (Task.update shelf)).toList ++ back) := by
    refine ⟨?_, ?_, ?_, ?_, ?_, ?_⟩
    · rw [Shelf.attempts_put]
      exact h.attempts_eq
    · intro other
      rw [Shelf.backend_put]
      -- Calls of other kinds find their entries unchanged.
      by_cases heq : other = shelf
      · subst heq
        rw [Shelf.lanes_put, hself]
        exact hprogress.next (hsound.of_call? other) hnext
      · rw [Shelf.lanes_put_of_ne _ _ _ _ heq, hnone _ (Task.job?_of_ne (Ne.symm heq))]
        exact (h.updates other).congr fun id => hentries (Shelf.name_kind_ne heq)
    · intro key hkey
      rw [Shelf.backend_put, hentries (hkey shelf)]
      exact h.others key hkey
    · rw [Shelf.outlets_put]
      exact h.length_outlets
    · intro number
      rw [Shelf.outlets_put, hnone _ fun _ => rfl]
      exact h.outlets number
    · rw [Shelf.desk_put, hnone _ fun _ => rfl]
      exact h.commands
  -- The step may have counted a failure, which books do not show.
  obtain ⟨state, hstate⟩ := exists_state_countEnded (shelf.put p lanes memory) job
  rw [hstate]
  exact hbooks.congr state _ _ _

/-- A step of a task keeps the books. -/
theorem next (h : Books start ledger p (front ++ task :: back)) (hsound : Sound ledger)
    {next : Option Task} {now : Instant} (hnext : task.next? p now = some (next, p')) :
    Books start ledger p' (front ++ next.toList ++ back) := by
  cases task with
  | alert text =>
    cases hnext
    have hnone {α : Type} (pick : Task → Option α) (hpick : pick (.alert text) = none) :
        (front ++ [] ++ back).filterMap pick = (front ++ .alert text :: back).filterMap pick := by
      rw [filterMap_middle_none hpick, List.append_nil]
    refine h.of_desk p.state _ p.outlets (fun shelf => hnone _ rfl) rfl ?_ ?_
    · intro number
      rw [Option.toList_none, hnone _ rfl]
      exact h.outlets number
    · rw [Option.toList_none, hnone _ rfl]
      exact h.commands
  | command c =>
    cases hnext
    rw [Option.toList_none, List.append_nil]
    exact h.next_command
  | «export» number record =>
    cases hnext
    rw [Option.toList_none, List.append_nil]
    exact h.next_export
  | update shelf job =>
    simp only [Task.next?, Option.bind_eq_bind, Option.bind_eq_some_iff] at hnext
    obtain ⟨⟨rest, lanes, memory⟩, hjob, ⟨⟩⟩ := hnext
    exact h.next_update hsound hjob

end Books

/-! ### Parts are handed out -/

/-- Books with the pending work of the pipeline behind the tasks. -/
def Noted (start : Pipeline Memory τ) (ledger : List Part) (tasks : List Task)
    (p : Pipeline Memory τ) : Prop :=
  Books start ledger p (tasks ++ p.pending.map Work.task)

namespace Noted

variable {start p : Pipeline Memory τ} {ledger : List Part} {tasks : List Task}

/-- Alerts to the operators are handed out. -/
theorem notify (h : Noted start ledger tasks p) (devices gateways : Watch.Tracker)
    (alerts : List Watch.Alert) :
    Noted start ledger tasks (Pipeline.notify { p with devices, gateways } alerts) := by
  have htasks : (p.pending ++ alerts.map fun alert => Work.alert alert.text).map Work.task
      = p.pending.map Work.task ++ (alerts.map Watch.Alert.text).map Task.alert := by
    rw [List.map_append, List.map_map, List.map_map]
    rfl
  have hbooks := (Books.alert h (alerts.map Watch.Alert.text)).congr p.state devices gateways
    (p.pending ++ alerts.map fun alert => Work.alert alert.text)
  rw [List.append_assoc, ← htasks] at hbooks
  exact hbooks

/-- Work is added whose task is noted. -/
theorem add {q : Pipeline Memory τ} {work : Work} {ledger' : List Part}
    (h : Books start ledger' q (tasks ++ p.pending.map Work.task ++ [work.task]))
    (hpending : q.pending = p.pending) : Noted start ledger' tasks (q.add [work]) := by
  have hbooks := h.congr q.state q.devices q.gateways (q.pending ++ [work])
  rw [List.append_assoc, ← hpending] at hbooks
  rw [Noted, Pipeline.add, List.map_append]
  exact hbooks

/-- A part that is handed out is noted. -/
theorem handOut (h : Noted start ledger tasks p) (part : Part) (now : Instant)
    (hsound : Sound [part]) :
    Noted start (ledger ++ [part]) tasks (part.handOut p now) := by
  cases part with
  | seeDevice id seen =>
    exact (h.notify _ p.gateways _).see (fun _ => rfl) (fun _ => rfl) rfl
  | seeGateway id seen =>
    exact (h.notify p.devices _ _).see (fun _ => rfl) (fun _ => rfl) rfl
  | update shelf call =>
    have hbooks := Books.queue h (hsound shelf call List.mem_cons_self)
    -- The work of the call is the task that the ledger expects.
    have htask : (shelf.work (call.queue (shelf.lanes p)).1).task
        = .update shelf (call.queue (shelf.lanes p)).1.job := by
      cases shelf <;> rfl
    rw [← htask] at hbooks
    exact add hbooks (shelf.pending_put ..)
  | «export» number record => exact add (Books.exportTo h number record) rfl
  | command c => exact add (Books.command h c) rfl

end Noted

end Pipeline

end FieldTelemetry
