import FieldTelemetry.Proofs.Store.Lines

/-!
# What calls in line leave

The store has transient faults, and nobody writes to it but the calls that stand in line. When all
calls for an entity have left, what is stored for it is what was stored at first with their updates
merged in, in the order in which the calls were made. The update of a call whose cycles were used up
may be among them.

## Main definitions

* `Transient.Apart`: operations on an entity do not affect what is stored for others
* `Reflects`: what is stored shows the updates of calls
* `Call.AtWork`: what is stored while a call is at work
* `Merged`: the calls of which the updates are merged, among those that have ended
* `Office.Serves`: what is stored fits to the lines
* `Office.InOrder`: the calls for an entity happen one by one and in their order

## Main results

* `Call.AtWork.step`: a call at work takes a step
* `Office.serves_run`: what is stored fits to the lines at all times
* `Office.run_inOrder`: an office is in order after any moves
-/

namespace FieldTelemetry.Store

open Time (Instant)

/-! ## Entities apart -/

/-- Operations on an entity do not affect what is stored for other entities of its kind. -/
structure Transient.Apart {σ : Type} [Backend σ] {kind : String}
    (views : (id : String) → Transient σ kind id) : Prop where
  /-- Reading for an entity leaves the faults of all of them transient. -/
  steady_read : ∀ id other {state}, (views other).Steady state →
    (views other).Steady (Backend.read state kind id).2
  /-- It leaves what is stored for them. -/
  contents_read : ∀ id other {state}, (views other).Steady state →
    (views other).contents (Backend.read state kind id).2 = (views other).contents state
  /-- Writing for an entity leaves the faults of all of them transient. -/
  steady_write : ∀ id other {state} octets now, (views other).Steady state →
    (views other).Steady (Backend.write state kind id octets now).2
  /-- It leaves what is stored for the others. -/
  contents_write : ∀ {id other state} octets now, other ≠ id → (views other).Steady state →
    (views other).contents (Backend.write state kind id octets now).2 = (views other).contents state

theorem Memory.apart_transient (kind : String) : Transient.Apart (Memory.transient kind) where
  steady_read _ _ _ _ := trivial
  contents_read id other memory _ := by
    simp only [Backend.read, withId]
    split <;> rfl
  steady_write _ _ _ _ _ _ := trivial
  contents_write {id other memory} octets now hother _ := by
    have hkey : (kind, other) ≠ (kind, id) := fun hsame => hother (congrArg Prod.snd hsame)
    simp only [Backend.write, withId]
    split
    · simp only [transient, Table.get?_insert, if_neg hkey]
    · rfl

theorem Faulty.apart_transient (kind : String) : Transient.Apart (Faulty.transient kind) where
  steady_read id _ _ h := by
    rcases read_cases h kind id with hread | hread
    · rw [hread]
      exact h.tail_reads _
    · rw [hread]
      exact h.tail_reads _
  contents_read id other _ h := by
    rcases read_cases h kind id with hread | hread
    · rw [hread]
      rfl
    · rw [hread]
      exact (Memory.apart_transient kind).contents_read id other trivial
  steady_write id _ _ octets now h := by
    rcases write_cases h kind id octets now with hwrite | hwrite
    · rw [hwrite]
      exact h.tail_writes _
    · rw [hwrite]
      exact h.tail_writes _
  contents_write {id other _} octets now hother h := by
    rcases write_cases h kind id octets now with hwrite | hwrite
    · rw [hwrite]
      rfl
    · rw [hwrite]
      exact (Memory.apart_transient kind).contents_write octets now hother trivial

theorem Folders.apart_transient (kind : String) : Transient.Apart (Folders.transient kind) where
  steady_read _ _ _ _ := trivial
  contents_read id other folders _ := by
    simp only [Backend.read, withId]
    split <;> try split
    all_goals rfl
  steady_write _ _ _ _ _ _ := trivial
  contents_write {id other folders} octets now hother _ := by
    have hname : fileName other ≠ fileName id := fun hsame => hother (fileName_injective hsame)
    rcases write_cases folders kind id octets now with hwrite | hwrite | hwrite
    · rw [hwrite]
    · rw [hwrite]
    · rw [hwrite]
      simp only [transient, folder, Table.get?_insert, if_true, Option.getD_some,
        Folder.contents?_replace, hname, and_false, if_false]

/-! ## What is stored -/

section Reflects

variable {α : Type} [Mergeable α] [Lasting α] {before text : Option Octets}
  {merged : List (Call α)} {call : Call α}

theorem Snapshot.lasts_after (hcalls : ∀ call ∈ merged, call.Survives) {s : Snapshot α}
    (h : Lasts s) (now : Instant) : Lasts (s.after merged now) := by
  induction merged using List.reverseRecOn with
  | nil => exact h
  | append_singleton merged call ih =>
    rw [after_append]
    rw [List.forall_mem_append, List.forall_mem_singleton] at hcalls
    exact Call.lasts_onto hcalls.2 (ih hcalls.1) now

/-- A snapshot is what was stored before with the updates of calls merged in, but for the times of
its changes. -/
structure Follows (before : Option Octets) (merged : List (Call α)) (s : Snapshot α) : Prop where
  /-- It is read from its text as it is. -/
  lasts : Lasts s
  /-- It says what they say but for the times. -/
  content : ∀ now, s.content = ((Call.stored before).after merged now).content

theorem Follows.onto {s : Snapshot α} (h : Follows before merged s) (hcall : call.Survives)
    (now : Instant) : Follows before (merged ++ [call]) (call.onto s now) where
  lasts := Call.lasts_onto hcall h.lasts now
  content later := by
    rw [Snapshot.after_append]
    exact call.content_onto (h.content later) now later

/-- The update of a call that is merged in already changes nothing. -/
theorem Follows.onto_again [LawfulState α] (hbefore : Lasts (Call.stored before : Snapshot α))
    (hmerged : ∀ call ∈ merged, call.Survives) {s : Snapshot α}
    (h : Follows before (merged ++ [call]) s) (hcall : call.Survives) (now : Instant) :
    Follows before (merged ++ [call]) (call.onto s now) where
  lasts := Call.lasts_onto hcall h.lasts now
  content later := by
    have hlasts := Snapshot.lasts_after hmerged hbefore later
    have hcontent := h.content later
    rw [Snapshot.after_append] at hcontent ⊢
    rw [call.content_onto hcontent now later]
    have hcurrent := (Snapshot.lasts_iff.mp (Call.lasts_onto hcall hlasts later)).1
    exact congrArg Snapshot.content (Call.onto_onto hcurrent later later later)

/-- What is stored shows the updates of calls, merged into what was stored before. -/
structure Reflects (before : Option Octets) (merged : List (Call α)) (text : Option Octets) :
    Prop where
  /-- Without updates nothing is rewritten. -/
  unchanged : merged = [] → text = before
  /-- The snapshot that is stored has all updates merged in. -/
  follows : Follows before merged (Call.stored text)

theorem reflects_start (h : Lasts (Call.stored before : Snapshot α)) :
    Reflects before ([] : List (Call α)) before where
  unchanged _ := rfl
  follows := ⟨h, fun _ => rfl⟩

theorem Follows.reflects {s : Snapshot α} (h : Follows before (merged ++ [call]) s) :
    Reflects before (merged ++ [call]) (some s.render) where
  unchanged hnil := absurd hnil (List.concat_ne_nil _ _)
  follows := by
    rw [Call.stored, Option.bind_some, Snapshot.ofOctets?_render h.lasts, Option.getD_some]
    exact h

/-! ### A call at work -/

/-- What is stored shows the updates of calls, and that of another call or not. -/
def Call.Seen (call : Call α) (before : Option Octets) (merged : List (Call α))
    (text : Option Octets) : Prop :=
  Reflects before merged text ∨ Reflects before (merged ++ [call]) text

/-- What is stored while a call is at work, after others whose updates are merged. -/
def Call.AtWork (call : Call α) (before : Option Octets) (merged : List (Call α))
    (text : Option Octets) : Phase α → Prop
  -- A cycle that has failed may have written.
  | .reading _ => call.Seen before merged text
  | .writing _ s => call.Seen before merged text ∧ Follows before (merged ++ [call]) s
  | .verifying _ _ | .done (.ok _) => Reflects before (merged ++ [call]) text
  | .done (.error error) =>
    error = call.unconverged ∧ call.Seen before merged text
      ∨ error = .invalidId call.id ∧ Reflects before merged text

theorem Call.Seen.begin (h : call.Seen before merged text) (left : Nat) :
    call.AtWork before merged text (call.begin left) := by
  cases left with
  | zero => exact .inl ⟨rfl, h⟩
  | succ more => exact h

theorem Reflects.start (h : Reflects before merged text) (call : Call α) :
    call.AtWork before merged text call.start := by
  rw [Call.start]
  split
  · exact Call.Seen.begin (.inl h) _
  · exact .inr ⟨rfl, h⟩

theorem Call.AtWork.seen {phase : Phase α} (h : call.AtWork before merged text phase)
    (hphase : phase.isDone = false) : call.Seen before merged text := by
  cases phase with
  | reading more => exact h
  | writing more s => exact h.1
  | verifying more s => exact .inr h
  | done result => cases hphase

/-- What a call writes shows its update, whatever it has read. -/
theorem Call.Seen.follows_merged [LawfulState α] (h : call.Seen before merged text)
    (hbefore : Lasts (Call.stored before : Snapshot α)) (hmerged : ∀ call ∈ merged, call.Survives)
    (hcall : call.Survives) (now : Instant) :
    Follows before (merged ++ [call]) (call.merged text now) := by
  rw [Call.merged_eq]
  rcases h with h | h
  · exact h.follows.onto hcall now
  · exact h.follows.onto_again hbefore hmerged hcall now

/-- A call as the only writer. -/
def Call.alone {σ : Type} (phase : Phase α) (store : σ) : Writers Unit α σ :=
  ⟨store, fun _ => phase, fun _ => [], fun _ => .epoch, [], []⟩

theorem Call.steady_step {σ : Type} [Backend σ] {kind : EntityKind α} {id : String}
    {view : Transient σ kind.name id} {store : σ} (hcall : call.For kind id)
    (hsteady : view.Steady store) (now : Instant) (phase : Phase α) :
    view.Steady (call.step now phase store).2 :=
  (Writers.turn_cases (fun _ : Unit => call) (w := alone phase store) (i := ()) hcall hsteady now).2

/-- A call at work takes a step. -/
theorem Call.AtWork.step {σ : Type} [Backend σ] [LawfulState α] {kind : EntityKind α} {id : String}
    {view : Transient σ kind.name id} {store : σ} {phase : Phase α}
    (h : call.AtWork before merged (view.contents store) phase) (hcall : call.For kind id)
    (hbefore : Lasts (Call.stored before : Snapshot α)) (hmerged : ∀ call ∈ merged, call.Survives)
    (hsteady : view.Steady store) (now : Instant) :
    call.AtWork before merged (view.contents (call.step now phase store).2)
      (call.step now phase store).1 := by
  obtain ⟨hturn, -⟩ := Writers.turn_cases (fun _ : Unit => call) (w := alone phase store) (i := ())
    hcall hsteady now
  have hphase : ((alone phase store).turn (fun _ => call) () now).phase ()
      = (call.step now phase store).1 := Writers.phase_turn_self ..
  have hstore : ((alone phase store).turn (fun _ => call) () now).store
      = (call.step now phase store).2 := rfl
  rw [← hphase, ← hstore]
  clear hphase hstore
  generalize (alone phase store).turn (fun _ => call) () now = next at hturn
  cases hturn with
  | @read more store' hreading hsame =>
    obtain rfl : phase = .reading more := hreading
    rw [Writers.phase_goTo_self]
    change call.AtWork before merged (view.contents store') _
    rw [hsame]
    exact ⟨h, Call.Seen.follows_merged h hbefore hmerged hcall.survives now⟩
  | @write more s store' hwriting hwritten =>
    obtain rfl : phase = .writing more s := hwriting
    rw [Writers.phase_goTo_self]
    change call.AtWork before merged (view.contents store') _
    rw [hwritten]
    exact h.2.reflects
  | @check more s store' hverifying hsame =>
    obtain rfl : phase = .verifying more s := hverifying
    rw [Writers.phase_goTo_self]
    change call.AtWork before merged (view.contents store') _
    rw [hsame]
    exact h
  | @fail more store' hfails hsame =>
    have hseen : call.Seen before merged (view.contents store) := by
      refine h.seen ?_
      change Call.Fails view store phase more at hfails
      cases hfails <;> rfl
    rw [Writers.phase_goTo_self]
    change call.AtWork before merged (view.contents store') _
    rw [hsame]
    exact hseen.begin more
  | rest hdone => exact h

end Reflects

/-! ## Lines -/

section Lines

variable {α : Type}

/-- The calls of a line that have ended, with their results. -/
def outcomes (line : List (Visit α)) : List (Call α × Except StoreError (Snapshot α)) :=
  line.filterMap fun visit => visit.stage.result?.map fun result => (visit.call, result)

/-- The calls of a line that have not ended. -/
def unfinished (line : List (Visit α)) : List (Visit α) := line.filter (!·.stage.isGone)

/-- The calls of which the updates are merged, among calls that have ended: all that ended with a
snapshot, and some of those whose cycles were used up. -/
inductive Merged : List (Call α × Except StoreError (Snapshot α)) → List (Call α) → Prop
  /-- No call has ended. -/
  | nil : Merged [] []
  /-- A call that ended with a snapshot has its update merged in. -/
  | ok {outcomes : List (Call α × Except StoreError (Snapshot α))} {merged : List (Call α)}
    (h : Merged outcomes merged) (call : Call α) (s : Snapshot α) :
    Merged (outcomes ++ [(call, .ok s)]) (merged ++ [call])
  /-- A call whose cycles were used up may have its update merged in. -/
  | late {outcomes : List (Call α × Except StoreError (Snapshot α))} {merged : List (Call α)}
    (h : Merged outcomes merged) (call : Call α) :
    Merged (outcomes ++ [(call, .error call.unconverged)]) (merged ++ [call])
  /-- It may have been left out. -/
  | absent {outcomes : List (Call α × Except StoreError (Snapshot α))} {merged : List (Call α)}
    (h : Merged outcomes merged) (call : Call α) :
    Merged (outcomes ++ [(call, .error call.unconverged)]) merged
  /-- A call for an identifier that is not allowed has not. -/
  | invalid {outcomes : List (Call α × Except StoreError (Snapshot α))} {merged : List (Call α)}
    (h : Merged outcomes merged) (call : Call α) :
    Merged (outcomes ++ [(call, .error (.invalidId call.id))]) merged

variable {front back line : List (Visit α)} {visit : Visit α}

theorem outcomes_append (front back : List (Visit α)) :
    outcomes (front ++ back) = outcomes front ++ outcomes back :=
  List.filterMap_append

theorem unfinished_append (front back : List (Visit α)) :
    unfinished (front ++ back) = unfinished front ++ unfinished back :=
  List.filter_append ..

theorem outcomes_cons (visit : Visit α) (line : List (Visit α)) : outcomes (visit :: line)
    = (visit.stage.result?.map fun result => (visit.call, result)).toList ++ outcomes line := by
  rw [outcomes, List.filterMap_cons]
  cases visit.stage.result? <;> rfl

theorem outcomes_of_waiting (h : ∀ visit ∈ line, visit.stage = .waiting) : outcomes line = [] := by
  rw [outcomes, List.filterMap_eq_nil_iff]
  intro visit hvisit
  rw [h visit hvisit]
  rfl

theorem unfinished_of_waiting (h : ∀ visit ∈ line, visit.stage = .waiting) :
    unfinished line = line := by
  rw [unfinished, List.filter_eq_self]
  intro visit hvisit
  rw [h visit hvisit]
  rfl

theorem unfinished_of_isGone (h : ∀ visit ∈ line, visit.stage.isGone = true) :
    unfinished line = [] := by
  rw [unfinished, List.filter_eq_nil_iff]
  intro visit hvisit
  rw [h visit hvisit]
  exact Bool.false_ne_true

/-- When all calls of a line have ended, all have outcomes. -/
theorem map_fst_outcomes (h : ∀ visit ∈ line, visit.stage.isGone = true) :
    (outcomes line).map Prod.fst = line.map Visit.call := by
  induction line with
  | nil => rfl
  | cons visit line ih =>
    obtain ⟨hvisit, hline⟩ := List.forall_mem_cons.mp h
    rw [outcomes_cons, List.map_append, ih hline, List.map_cons]
    cases hstage : visit.stage with
    | leaving result => rfl
    | left result => rfl
    | _ => rw [hstage] at hvisit; cases hvisit

/-- A visit that has not ended stands behind those that have, and in front of those that wait. -/
theorem unfinished_line (hfront : ∀ a ∈ front, a.stage.isGone = true)
    (hvisit : visit.stage.isGone = false) (hback : ∀ b ∈ back, b.stage = .waiting) :
    unfinished (front ++ visit :: back) = visit :: back := by
  rw [unfinished_append, unfinished_of_isGone hfront, List.nil_append, unfinished,
    List.filter_cons_of_pos (by rw [hvisit]; rfl), ← unfinished, unfinished_of_waiting hback]

theorem outcomes_line (hback : ∀ b ∈ back, b.stage = .waiting) :
    outcomes (front ++ visit :: back)
      = outcomes front ++ (visit.stage.result?.map fun result => (visit.call, result)).toList := by
  rw [outcomes_append, outcomes_cons, outcomes_of_waiting hback, List.append_nil]

variable [Mergeable α] [Lasting α] {before text : Option Octets} {merged : List (Call α)}

/-- What is stored while a call is the first of those that have not ended. -/
def Visit.AtWork (visit : Visit α) (before : Option Octets) (merged : List (Call α))
    (text : Option Octets) : Prop :=
  match visit.stage with
  | .waiting => Reflects before merged text
  | .working phase => visit.call.AtWork before merged text phase
  | .leaving _ | .left _ => False

/-- What is stored while only the first of some calls is at work. -/
def FirstAtWork (before : Option Octets) (merged : List (Call α)) (text : Option Octets) :
    List (Visit α) → Prop
  | [] => Reflects before merged text
  | visit :: others => visit.AtWork before merged text ∧ ∀ other ∈ others, other.stage = .waiting

theorem FirstAtWork.of_waiting (h : Reflects before merged text)
    (hline : ∀ visit ∈ line, visit.stage = .waiting) : FirstAtWork before merged text line := by
  cases line with
  | nil => exact h
  | cons visit others =>
    obtain ⟨hvisit, hothers⟩ := List.forall_mem_cons.mp hline
    refine ⟨?_, hothers⟩
    rw [Visit.AtWork, hvisit]
    exact h

theorem FirstAtWork.concat (h : FirstAtWork before merged text line)
    (hvisit : visit.stage = .waiting) : FirstAtWork before merged text (line ++ [visit]) := by
  cases line with
  | nil => exact .of_waiting h (List.forall_mem_singleton.mpr hvisit)
  | cons first others =>
    exact ⟨h.1, List.forall_mem_append.mpr ⟨h.2, List.forall_mem_singleton.mpr hvisit⟩⟩

/-- What is stored fits to a line of calls: it shows the updates of those that have ended, and only
the first of the others is at work. -/
structure Serving (before text : Option Octets) (line : List (Visit α)) (merged : List (Call α)) :
    Prop where
  /-- The updates merged in are those of calls that have ended. -/
  ended : Merged (outcomes line) merged
  /-- Their updates are read back from a text as they are. -/
  survives : ∀ call ∈ merged, call.Survives
  /-- Only the first call that has not ended is at work on what they have left. -/
  shows : FirstAtWork before merged text (unfinished line)

theorem serving_nil (h : Lasts (Call.stored before : Snapshot α)) :
    Serving before before ([] : List (Visit α)) [] where
  ended := .nil
  survives _ hcall := absurd hcall List.not_mem_nil
  shows := reflects_start h

theorem Serving.concat (h : Serving before text line merged) (hvisit : visit.stage = .waiting) :
    Serving before text (line ++ [visit]) merged where
  ended := by
    rw [outcomes_append, outcomes_of_waiting (List.forall_mem_singleton.mpr hvisit),
      List.append_nil]
    exact h.ended
  survives := h.survives
  shows := by
    rw [unfinished_append, unfinished_of_waiting (List.forall_mem_singleton.mpr hvisit)]
    exact h.shows.concat hvisit

/-- A call that has not ended comes to another stage, in which it has not ended either. -/
theorem Serving.goesOn {text' : Option Octets} {stage : Stage α}
    (h : Serving before text (front ++ visit :: back) merged)
    (hfront : ∀ a ∈ front, a.stage.isGone = true) (hback : ∀ b ∈ back, b.stage = .waiting)
    (hvisit : visit.stage.isGone = false) (hstage : stage.isGone = false)
    (hwork : visit.AtWork before merged text →
      ({ visit with stage } : Visit α).AtWork before merged text') :
    Serving before text' (front ++ { visit with stage } :: back) merged := by
  have hresult {stage : Stage α} (hstage : stage.isGone = false) : stage.result? = none := by
    cases stage <;> first | rfl | cases hstage
  have hended := h.ended
  have hshows := h.shows
  rw [outcomes_line hback, hresult hvisit] at hended
  rw [unfinished_line hfront hvisit hback] at hshows
  refine ⟨?_, h.survives, ?_⟩
  · rw [outcomes_line hback, hresult hstage]
    exact hended
  · rw [unfinished_line hfront hstage hback]
    exact ⟨hwork hshows.1, hback⟩

/-- A call that ends joins those that have ended. -/
theorem Serving.ends (h : Serving before text (front ++ visit :: back) merged)
    {result : Except StoreError (Snapshot α)} (hstage : visit.stage = .working (.done result))
    (hfront : ∀ a ∈ front, a.stage.isGone = true) (hback : ∀ b ∈ back, b.stage = .waiting)
    (hcall : visit.call.Survives) :
    ∃ merged', Serving before text (front ++ { visit with stage := .leaving result } :: back)
      merged' := by
  have hbefore : outcomes (front ++ visit :: back) = outcomes front := by
    rw [outcomes_line hback, hstage]
    exact List.append_nil _
  have hended := hbefore ▸ h.ended
  have hshows := h.shows
  rw [unfinished_line hfront (by rw [hstage]; rfl) hback] at hshows
  have hwork := hshows.1
  rw [Visit.AtWork, hstage] at hwork
  have hafter : outcomes (front ++ { visit with stage := .leaving result } :: back)
      = outcomes front ++ [(visit.call, result)] := outcomes_line hback
  have hrest : unfinished (front ++ { visit with stage := .leaving result } :: back) = back := by
    rw [unfinished_append, unfinished_of_isGone hfront, List.nil_append, unfinished,
      List.filter_cons_of_neg (by simp [Stage.isGone]), ← unfinished, unfinished_of_waiting hback]
  have hserving {merged' : List (Call α)}
      (hmerged : Merged (outcomes front ++ [(visit.call, result)]) merged')
      (hsurvives : ∀ call ∈ merged', call.Survives) (hreflects : Reflects before merged' text) :
      Serving before text (front ++ { visit with stage := .leaving result } :: back) merged' := by
    refine ⟨hafter ▸ hmerged, hsurvives, ?_⟩
    rw [hrest]
    exact .of_waiting hreflects hback
  have hboth : ∀ call ∈ merged ++ [visit.call], call.Survives :=
    List.forall_mem_append.mpr ⟨h.survives, List.forall_mem_singleton.mpr hcall⟩
  -- Its update is merged, or its cycles were used up, or what it is for is no id.
  cases result with
  | ok s => exact ⟨_, hserving (hended.ok visit.call s) hboth hwork⟩
  | error error =>
    rcases hwork with ⟨rfl, hseen | hseen⟩ | ⟨rfl, hreflects⟩
    · exact ⟨_, hserving (hended.absent visit.call) h.survives hseen⟩
    · exact ⟨_, hserving (hended.late visit.call) hboth hseen⟩
    · exact ⟨_, hserving (hended.invalid visit.call) h.survives hreflects⟩

/-- A call that leaves has ended before. -/
theorem Serving.leaves (h : Serving before text (front ++ visit :: back) merged)
    {result : Except StoreError (Snapshot α)} (hstage : visit.stage = .leaving result) :
    Serving before text (front ++ { visit with stage := .left result } :: back) merged := by
  have hsame : outcomes (front ++ { visit with stage := .left result } :: back)
      = outcomes (front ++ visit :: back) := by
    rw [outcomes_append, outcomes_append, outcomes_cons, outcomes_cons, hstage]
    rfl
  have hrest : unfinished (front ++ { visit with stage := .left result } :: back)
      = unfinished (front ++ visit :: back) := by
    rw [unfinished_append, unfinished_append, unfinished, unfinished, unfinished,
      List.filter_cons_of_neg (by simp [Stage.isGone]),
      List.filter_cons_of_neg (by simp [hstage, Stage.isGone])]
  exact ⟨hsame ▸ h.ended, h.survives, hrest ▸ h.shows⟩

end Lines

/-! ## Offices -/

section Offices

variable {α σ : Type} [Mergeable α] [Lasting α] [Backend σ] {kind : EntityKind α}
  {views : (id : String) → Transient σ kind.name id}

omit [Lasting α] in
/-- A step of a call does not affect what is stored for other entities. -/
theorem Transient.Apart.step (hapart : Transient.Apart views) {call : Call α} {other : String}
    (hkind : call.kind = kind) (hother : other ≠ call.id) {store : σ}
    (hsteady : (views other).Steady store) (now : Instant) (phase : Phase α) :
    (views other).Steady (call.step now phase store).2
      ∧ (views other).contents (call.step now phase store).2 = (views other).contents store := by
  subst hkind
  have hread := And.intro (hapart.steady_read call.id other hsteady)
    (hapart.contents_read call.id other hsteady)
  cases phase with
  | reading more =>
    rw [Call.step]
    split
    · rename_i heq
      rw [heq] at hread
      exact hread
    · rename_i heq
      rw [heq] at hread
      exact hread
  | writing more s =>
    have hwrite := And.intro (hapart.steady_write call.id other s.render now hsteady)
      (hapart.contents_write s.render now hother hsteady)
    rw [Call.step]
    split
    · rename_i heq
      rw [heq] at hwrite
      exact hwrite
    · rename_i heq
      rw [heq] at hwrite
      exact hwrite
  | verifying more s => exact hread
  | done result => exact ⟨hsteady, rfl⟩

namespace Office

/-- What is stored fits to the lines of all entities. -/
structure Serves (views : (id : String) → Transient σ kind.name id)
    (before : String → Option Octets) (office : Office α σ) : Prop where
  /-- The faults of the store are transient for all entities. -/
  steady : ∀ id, (views id).Steady office.store
  /-- The visits of an entity are calls for it. -/
  calls : ∀ id, ∀ visit ∈ office.lines id, visit.call.For kind id
  /-- What is stored for an entity fits to its line. -/
  serving : ∀ id, ∃ merged,
    Serving (before id) ((views id).contents office.store) (office.lines id) merged

namespace Serves

variable {before : String → Option Octets} {office : Office α σ}

theorem start {store : σ} (hsteady : ∀ id, (views id).Steady store)
    (hstored : ∀ id, Lasts (Call.stored ((views id).contents store) : Snapshot α)) :
    Serves views (fun id => (views id).contents store) ({ store } : Office α σ) where
  steady := hsteady
  calls _ _ hvisit := absurd hvisit List.not_mem_nil
  serving id := ⟨[], serving_nil (hstored id)⟩

theorem receive (h : office.Serves views before) {call : Call α} (hkind : call.kind = kind)
    (hcall : call.Survives) : (office.receive call).Serves views before where
  steady := h.steady
  calls id visit hvisit := by
    rw [Office.receive] at hvisit
    by_cases hid : id = call.id
    · subst hid
      rw [lines_withLine_self] at hvisit
      rcases List.mem_append.mp hvisit with hvisit | hvisit
      · exact h.calls call.id visit hvisit
      · rw [List.mem_singleton.mp hvisit]
        exact ⟨hkind, rfl, hcall⟩
    · rw [lines_withLine_of_ne hid] at hvisit
      exact h.calls id visit hvisit
  serving id := by
    obtain ⟨merged, hserving⟩ := h.serving id
    refine ⟨merged, ?_⟩
    rw [Office.receive]
    by_cases hid : id = call.id
    · subst hid
      rw [lines_withLine_self]
      exact hserving.concat rfl
    · rw [lines_withLine_of_ne hid]
      exact hserving

variable [LawfulState α]

/-- A call in line takes a step. -/
theorem next (hbefore : ∀ id, Lasts (Call.stored (before id) : Snapshot α))
    (horderly : office.Orderly) (h : office.Serves views before) {id : String}
    {front back : List (Visit α)} {visit : Visit α} {now : Instant} {stage : Stage α}
    {lanes : Lanes} {store : σ} (hline : office.lines id = front ++ visit :: back)
    (hnext : visit.Next office.lanes now office.store stage lanes store) :
    (views id).Steady store ∧ ∃ merged, Serving (before id) ((views id).contents store)
      (front ++ { visit with stage } :: back) merged := by
  have hinLine := horderly.line id
  have hcall := h.calls id visit (hline ▸ List.mem_append_right _ List.mem_cons_self)
  obtain ⟨merged, hserving⟩ := h.serving id
  rw [hline] at hinLine hserving
  have hfront (hbegun : visit.stage.hasBegun = true) (a : Visit α) (ha : a ∈ front) :
      a.stage.isGone = true := (hinLine.inFrontOf_of_front ha).isGone_of_hasBegun hbegun
  cases hnext with
  | begins hstage hpass =>
    refine ⟨h.steady id, merged, ?_⟩
    have hgone : visit.stage.isGone = false := by rw [hstage]; rfl
    refine hserving.goesOn (hinLine.isGone_of_mayPass hpass) (hinLine.waiting_of_back hgone) hgone
      rfl fun hwork => ?_
    rw [Visit.AtWork, hstage] at hwork
    exact Reflects.start hwork visit.call
  | @works phase hstage hphase =>
    have hgone : visit.stage.isGone = false := by rw [hstage]; rfl
    refine ⟨Call.steady_step hcall (h.steady id) now phase, merged, ?_⟩
    refine hserving.goesOn (hfront (by rw [hstage]; rfl)) (hinLine.waiting_of_back hgone) hgone rfl
      fun hwork => ?_
    rw [Visit.AtWork, hstage] at hwork
    exact Call.AtWork.step hwork hcall (hbefore id) hserving.survives (h.steady id) now
  | @ends result hstage =>
    refine ⟨h.steady id, ?_⟩
    have hgone : visit.stage.isGone = false := by rw [hstage]; rfl
    exact hserving.ends hstage (hfront (by rw [hstage]; rfl)) (hinLine.waiting_of_back hgone)
      hcall.survives
  | leaves hstage => exact ⟨h.steady id, merged, hserving.leaves hstage⟩

theorem visited (hbefore : ∀ id, Lasts (Call.stored (before id) : Snapshot α))
    (hapart : Transient.Apart views) (horderly : office.Orderly) (h : office.Serves views before)
    {id : String} {front back : List (Visit α)} {visit : Visit α} {now : Instant}
    {stage : Stage α} {lanes : Lanes} {store : σ} (hline : office.lines id = front ++ visit :: back)
    (hnext : visit.Next office.lanes now office.store stage lanes store) :
    (office.withLine id (front ++ { visit with stage } :: back) lanes store).Serves views
      before := by
  have hmem : visit ∈ office.lines id := hline ▸ List.mem_append_right _ List.mem_cons_self
  have hcall := h.calls id visit hmem
  obtain ⟨hsteady, hserving⟩ := next hbefore horderly h hline hnext
  -- What is stored for others stays.
  have hothers {other : String} (hother : other ≠ id) : (views other).Steady store
      ∧ (views other).contents store = (views other).contents office.store := by
    rcases hnext.store_eq with rfl | ⟨phase, rfl⟩
    · exact ⟨h.steady other, rfl⟩
    · exact hapart.step hcall.kind_eq (hcall.id_eq ▸ hother) (h.steady other) now phase
  refine ⟨?_, ?_, ?_⟩
  · intro other
    by_cases hother : other = id
    · subst hother
      exact hsteady
    · exact (hothers hother).1
  · intro other v hv
    by_cases hother : other = id
    · subst hother
      rw [lines_withLine_self] at hv
      exact InLine.forall_mem_replace (hline ▸ h.calls other) hcall v hv
    · rw [lines_withLine_of_ne hother] at hv
      exact h.calls other v hv
  · intro other
    by_cases hother : other = id
    · subst hother
      rw [lines_withLine_self]
      exact hserving
    · obtain ⟨merged, hserving⟩ := h.serving other
      rw [lines_withLine_of_ne hother]
      exact ⟨merged, (hothers hother).2 ▸ hserving⟩

end Serves

variable [LawfulState α]

/-- What is stored fits to the lines at all times. -/
theorem serves_run (hapart : Transient.Apart views) {store : σ}
    (hsteady : ∀ id, (views id).Steady store)
    (hstored : ∀ id, Lasts (Call.stored ((views id).contents store) : Snapshot α))
    {moves : List (Move α)} (hcalls : ∀ call ∈ made moves, call.kind = kind ∧ call.Survives) :
    (({ store } : Office α σ).run moves).Serves views fun id => (views id).contents store := by
  induction moves using List.reverseRecOn with
  | nil => exact .start hsteady hstored
  | append_singleton moves next ih =>
    rw [made, List.filterMap_append, ← made, List.forall_mem_append] at hcalls
    have hserves := ih hcalls.1
    rw [run_concat]
    cases next with
    | call call =>
      obtain ⟨hkind, hcall⟩ := hcalls.2 call List.mem_cons_self
      exact hserves.receive hkind hcall
    | visit id position now =>
      rcases (({ store } : Office α σ).run moves).move_visit id position now with
        hnothing | ⟨_, _, _, _, _, _, hline, hnext, hmove⟩
      · rw [hnothing]
        exact hserves
      · rw [hmove]
        exact hserves.visited hstored hapart (orderly_run store moves) hline hnext

/-- What is in order in an office now, after calls have been made and have taken steps. -/
structure InOrder (views : (id : String) → Transient σ kind.name id) (store : σ)
    (moves : List (Move α)) (now : Office α σ) : Prop where
  /-- The line of an entity holds the calls for it, in the order in which they were made. -/
  calls (id : String) : (now.lines id).map Visit.call = callsOf id (made moves)
  /-- A call does not begin before those in front of it have ended. -/
  oneByOne (id : String) : (now.lines id).Pairwise fun earlier later =>
    later.stage.hasBegun = true → earlier.stage.isGone = true
  /-- The first call of a line that has not left can take a step, which brings it nearer to its end,
  whatever becomes of the calls for other entities. -/
  goesOn {id : String} {front back : List (Visit α)} {visit : Visit α} (time : Instant) :
    now.lines id = front ++ visit :: back → (∀ earlier ∈ front, earlier.stage.hasLeft = true) →
      visit.stage.hasLeft = false → ∃ stage lanes store',
        visit.next? now.lanes time now.store = some (stage, lanes, store')
          ∧ ({ visit with stage } : Visit α).left < visit.left
  /-- When all calls of a line have left, what is stored for the entity is what was stored at first
  with the updates of those that ended with a snapshot merged in, in the order in which they were
  made, but for the times of the changes. The update of a call whose cycles were used up is merged
  in at its place or not at all. -/
  ended {id : String} : (∀ visit ∈ now.lines id, visit.stage.hasLeft = true) →
    (outcomes (now.lines id)).map Prod.fst = callsOf id (made moves)
      ∧ ∃ merged, Merged (outcomes (now.lines id)) merged
        ∧ (merged = [] → (views id).contents now.store = (views id).contents store)
        ∧ ∀ time, (Call.stored ((views id).contents now.store) : Snapshot α).content
          = ((Call.stored ((views id).contents store)).after merged time).content

/-- Calls for the entities of a kind are made, and those that were made take their steps, in any
order and with any faults of the store: the calls for an entity happen one by one and in the order
in which they were made. -/
theorem run_inOrder (hapart : Transient.Apart views) {store : σ}
    (hsteady : ∀ id, (views id).Steady store)
    (hstored : ∀ id, Survive (Call.stored ((views id).contents store) : Snapshot α))
    {moves : List (Move α)} (hcalls : ∀ call ∈ made moves, call.kind = kind ∧ call.Survives) :
    InOrder views store moves (({ store } : Office α σ).run moves) := by
  have horderly := orderly_run store moves
  have hserves := serves_run hapart hsteady (fun id => Call.lasts_stored (hstored id)) hcalls
  have hcallsOf := map_call_lines_run store moves
  generalize ({ store } : Office α σ).run moves = now at horderly hserves hcallsOf
  refine ⟨hcallsOf, ?_, ?_, ?_⟩
  · exact fun id => (horderly.line id).inFront.imp fun hfront => hfront.isGone_of_hasBegun
  · intro id front back visit time hline hfront hvisit
    obtain ⟨stage, lanes, store', hnext⟩ := horderly.exists_next? hline hfront hvisit time
    exact ⟨stage, lanes, store', hnext, (Visit.next_of_next? hnext).left_lt⟩
  · intro id hleft
    have hgone (visit : Visit α) (hvisit : visit ∈ now.lines id) : visit.stage.isGone = true :=
      Stage.isGone_of_hasLeft (hleft visit hvisit)
    obtain ⟨merged, hended, -, hshows⟩ := hserves.serving id
    rw [unfinished_of_isGone hgone] at hshows
    exact ⟨(map_fst_outcomes hgone).trans (hcallsOf id), merged, hended, hshows.unchanged,
      hshows.follows.content⟩

end Office

end Offices

/-! ### Two devices -/

/-- A device that reports a count. -/
def countOf (id : String) (cpm : UInt32) : Call SensorRecord where
  kind := .device
  id := id
  update := { geiger := some { cpm0 := some cpm } }
  attempts := 2

/-- A device reports twice, and does its first report and another device reports in between. -/
def twoDevices : List (Move SensorRecord) :=
  [.call (countOf "100" 7), .visit "100" 0 .epoch, .visit "100" 0 .epoch, .call (countOf "100" 8),
    .visit "100" 1 .epoch, .call (countOf "200" 9), .visit "200" 0 .epoch, .visit "200" 0 .epoch]

/-- An empty memory that fails to read at first, and to write. -/
def halting : Faulty where
  memory := default
  reads := [.fails]
  writes := [.fails]

/-- When both reports of a device have come to their end, what is stored for it shows those that are
merged in, in their order. -/
theorem Office.run_inOrder_twoDevices :
    ∃ moves, made moves = [countOf "100" 7, countOf "100" 8, countOf "200" 9]
      ∧ let office := ({ store := halting } : Office SensorRecord Faulty).run moves
        (outcomes (office.lines "100")).map Prod.fst = [countOf "100" 7, countOf "100" 8]
          ∧ ∃ merged, Merged (outcomes (office.lines "100")) merged
            ∧ ∀ now, (Call.stored ((Faulty.transient "device" "100").contents office.store)
                : Snapshot SensorRecord).content
              = ((Snapshot.empty : Snapshot SensorRecord).after merged now).content := by
  obtain ⟨steps, hmade, hleft⟩ := Office.exists_run_hasLeft halting twoDevices "100"
  have hcalls : made (twoDevices ++ steps)
      = [countOf "100" 7, countOf "100" 8, countOf "200" 9] := hmade.trans rfl
  have hsteady (id : String) : (Faulty.transient EntityKind.device.name id).Steady halting :=
    ⟨by decide, by decide⟩
  have hsound : ∀ call ∈ made (twoDevices ++ steps),
      call.kind = EntityKind.device ∧ call.Survives := by
    rw [hcalls]
    simp only [List.forall_mem_cons]
    exact ⟨⟨rfl, Call.survives_of_eq_nil rfl rfl⟩, ⟨rfl, Call.survives_of_eq_nil rfl rfl⟩,
      ⟨rfl, Call.survives_of_eq_nil rfl rfl⟩, fun _ hcall => absurd hcall List.not_mem_nil⟩
  have hinOrder := Office.run_inOrder (Faulty.apart_transient EntityKind.device.name) hsteady
    (fun _ => Snapshot.lasts_empty.survive) hsound
  obtain ⟨hfirst, merged, hmerged, -, hcontent⟩ := hinOrder.ended hleft
  have hof : callsOf "100" (made (twoDevices ++ steps)) = [countOf "100" 7, countOf "100" 8] := by
    rw [hcalls]
    rfl
  exact ⟨_, hcalls, hfirst.trans hof, merged, hmerged, hcontent⟩

end FieldTelemetry.Store
