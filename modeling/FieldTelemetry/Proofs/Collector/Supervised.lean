import FieldTelemetry.Proofs.Collector.Verdict

/-!
# Supervisions

A supervisor among its processes does what the supervisor does that joins a process and looks at the
token at once. So what is known of the one is known of the other.

## Main definitions

* `Supervision.Follows`: a supervisor that does not tell joining from looking has come as far
* `Supervision.Supervised`: what is known of a supervision

## Main results

* `Supervision.supervised_run`: all that is known of a supervision after any steps
-/

namespace FieldTelemetry.Collector

namespace Supervision

variable {names : List String} {s s' : Supervision}

/-! ## A supervisor that joins and looks at once -/

/-- The processes that the supervisor has not done with. -/
def unjoined (names : List String) (s : Supervision) : List (Nat × String) :=
  remaining names (s.joined.map fun entry => entry.1.number)

/-- A supervisor that does not tell joining from looking has come as far. Once it has ended, it does
not take notice of the token any more. -/
structure Follows (names : List String) (s : Supervision) (m : Supervisor) : Prop where
  /-- It has joined the same processes. -/
  joined : m.joined = s.joined.map fun entry => (entry.1.number, entry.1.ending)
  /-- It has aborted the same. -/
  aborted : m.aborted = s.aborted
  /-- They have decided on the same failure. -/
  failure : m.failure = verdict s.joined
  /-- It has ended when no process is left, although nobody has looked for the next one yet. -/
  phase : m.phase = match s.place with
    | .watching => if unjoined names s = [] then .ended else .watching
    | .looking _ => .watching
    | .draining => if unjoined names s = [] then .ended else .draining
    | .returned => .ended
  /-- It does not know of a failure before the look. -/
  cancelled : m.phase ≠ .ended → m.cancelled = match s.place with
    | .looking _ => s.ordered
    | _ => s.token
  /-- It waits for all others. -/
  running : m.phase ≠ .ended → m.running = unjoined names s

/-- A process is found among those that remain by its number. -/
theorem find?_remaining {gone : List Nat} {process : Nat × String}
    (hmem : process ∈ remaining names gone) :
    (remaining names gone).find? (·.1 = process.1) = some process := by
  have hsome : ((remaining names gone).find? (·.1 = process.1)).isSome := by
    rw [List.find?_isSome]
    exact ⟨process, hmem, decide_eq_true rfl⟩
  obtain ⟨found, hfound⟩ := Option.isSome_iff_exists.mp hsome
  have hnumber : found.1 = process.1 := by simpa using List.find?_some hfound
  have hin := (mem_remaining_iff.mp (List.mem_of_find?_eq_some hfound)).1
  rw [hfound, List.inj_on_of_nodup_map (nodup_processes names) hin (mem_remaining_iff.mp hmem).1
    hnumber]

/-- What such a supervisor does when a process ends that it waits for. It takes notice of failures
while it watches. -/
theorem step_event {m : Supervisor} {completion : Completion} {failure : Option Failure}
    (hphase : m.phase ≠ .ended)
    (hfind : m.running.find? (·.1 = completion.number) = some completion.process)
    (hfailure : (if m.phase = .watching then completion.failure? else none) = failure) :
    m.step completion.event = { m with
      running := m.running.filter (·.1 ≠ completion.number)
      joined := m.joined ++ [(completion.number, completion.ending)]
      cancelled := m.cancelled || failure.isSome
      failure := m.failure.or failure
      phase := Supervisor.next m.phase (m.cancelled || failure.isSome)
        (m.running.filter (·.1 ≠ completion.number)) } := by
  subst hfailure
  rw [Completion.event, Supervisor.step, if_neg hphase]
  simp only [Supervisor.join, hfind]
  rfl

namespace Accounted

/-- Whoever is in hand or has ended was not joined before. -/
theorem mem_unjoined (h : Accounted names s) {completion : Completion}
    (hmem : completion ∈ s.hand ++ s.finished) : completion.process ∈ unjoined names s := by
  have honce := h.once
  have hends : completion ∈ s.ends := by
    rw [h.order, List.append_assoc]
    exact List.mem_append_right _ hmem
  rw [h.order, List.append_assoc, List.map_append, List.nodup_append] at honce
  refine mem_remaining_iff.mpr ⟨h.known completion hends, fun hjoined => ?_⟩
  refine honce.2.2 completion.number ?_ completion.number (List.mem_map_of_mem hmem) rfl
  rw [List.map_map]
  exact hjoined

/-- No process is left when none runs or waits. -/
theorem unjoined_eq_nil (h : Accounted names s) (hempty : s.Empty) (hhand : s.hand = [])
    (haborted : s.aborted = []) : unjoined names s = [] := by
  have hrest := h.rest
  rw [hempty.1, haborted, h.order, hhand, hempty.2, List.append_nil, List.append_nil,
    List.append_nil, List.map_map] at hrest
  exact hrest.symm

end Accounted

namespace Follows

variable {m : Supervisor}

theorem start (names : List String) (drain : Nat) :
    Follows names (start names drain) (Supervisor.new names) where
  joined := rfl
  aborted := rfl
  failure := rfl
  phase := by
    have hnil : unjoined names (Supervision.start names drain) = [] ↔ names = [] := by
      simp [unjoined, remaining, Supervision.start, processes, Supervisor.new]
    exact if_congr hnil.symm rfl rfl
  cancelled _ := rfl
  running _ := by simp [unjoined, remaining, Supervision.start, processes]

/-- Processes that end and time that passes do not matter. -/
theorem congr (h : Follows names s m) (hplace : s'.place = s.place) (hjoined : s'.joined = s.joined)
    (haborted : s'.aborted = s.aborted) (htoken : s'.token = s.token)
    (hordered : s'.ordered = s.ordered) : Follows names s' m := by
  obtain ⟨h1, h2, h3, h4, h5, h6⟩ := h
  refine ⟨?_, ?_, ?_, ?_, ?_, ?_⟩ <;>
    simp only [unjoined, hplace, hjoined, haborted, htoken, hordered] <;> assumption

theorem order (h : Follows names s m) : Follows names
    { s with token := true, ordered := true, events := s.events ++ [.cancelled] }
    (m.step .cancelled) := by
  rw [Supervisor.step]
  split
  · rename_i hended
    exact ⟨h.joined, h.aborted, h.failure, h.phase, fun hnot => absurd hended hnot,
      fun hnot => absurd hended hnot⟩
  · refine ⟨h.joined, h.aborted, h.failure, h.phase, fun _ => ?_, h.running⟩
    dsimp only
    split <;> rfl

theorem take (h : Follows names s m) (ha : Accounted names s) (hj : s.Judged)
    (hplace : s.place = .watching) {completion : Completion} {rest : List Completion}
    (hfinished : s.finished = completion :: rest) : Follows names (s.take completion rest) m := by
  have hmem : completion.process ∈ unjoined names s := ha.mem_unjoined (by simp [hfinished])
  have hphase := h.phase
  have hcancelled := h.cancelled
  rw [hplace] at hphase hcancelled
  dsimp only at hphase hcancelled
  rw [if_neg (List.ne_nil_of_mem hmem)] at hphase
  rw [Judged, hplace] at hj
  exact ⟨h.joined, h.aborted, h.failure, hphase, fun hnot => (hcancelled hnot).trans hj.2.2,
    h.running⟩

/-- What is left when one more process has been joined. -/
theorem unjoined_note (completion : Completion) : unjoined names (s.note completion)
    = (unjoined names s).filter (·.1 ≠ completion.number) := by
  rw [unjoined, note, List.map_append, List.map_singleton, remaining_concat]
  rfl

/-- It waits for everybody who is to be joined. -/
theorem find?_running (h : Follows names s m) (ha : Accounted names s) (hnot : m.phase ≠ .ended)
    {completion : Completion} (hmem : completion ∈ s.hand ++ s.finished) :
    m.running.find? (·.1 = completion.number) = some completion.process := by
  rw [h.running hnot]
  exact find?_remaining (ha.mem_unjoined hmem)

theorem joined_note (h : Follows names s m) (completion : Completion) :
    m.joined ++ [(completion.number, completion.ending)]
      = (s.note completion).joined.map fun entry => (entry.1.number, entry.1.ending) := by
  rw [note, List.map_append, ← h.joined]
  rfl

theorem look (h : Follows names s m) (ha : Accounted names s) (hj : s.Judged)
    {completion : Completion} (hplace : s.place = .looking completion) :
    Follows names (s.note completion).look (m.step completion.event) := by
  have hphase : m.phase = .watching := by
    rw [h.phase, hplace]
  have hnot : m.phase ≠ .ended := by simp [hphase]
  have hcancelled := h.cancelled hnot
  rw [hplace] at hcancelled
  change m.cancelled = s.ordered at hcancelled
  have hmem : completion ∈ s.hand ++ s.finished := by simp [hand, hplace]
  have hfind := h.find?_running ha hnot hmem
  have haccounted := ha.look hplace
  rw [Judged, hplace] at hj
  obtain ⟨hnone, -, htoken⟩ := hj
  have hall := h.joined_note completion
  have hverdict : m.failure.or completion.failure? = verdict (s.note completion).joined := by
    rw [show (s.note completion).joined = s.joined ++ [(completion, s.token)] from rfl,
      verdict_concat_of_none hnone, h.failure, verdict_of_none hnone, Option.none_or]
  rw [step_event hnot hfind (if_pos hphase), hphase, h.running hnot, hcancelled, ← htoken,
    ← unjoined_note]
  rcases (s.note completion).look_cases with ⟨hcancelled, hempty, hlook⟩ | ⟨hcancelled, -, hlook⟩
    | ⟨hcancelled, hlook⟩
  · rw [hlook] at haccounted ⊢
    have haborted : s.aborted = [] := ha.aborted_eq_nil (by simp [hplace])
    have hnil : unjoined names (s.note completion) = [] :=
      haccounted.unjoined_eq_nil hempty rfl haborted
    have hended : Supervisor.next .watching s.token (unjoined names (s.note completion)) = .ended :=
      if_pos hnil
    exact ⟨hall, h.aborted, hverdict, hended, fun hne => absurd hended hne,
      fun hne => absurd hended hne⟩
  · rw [hlook]
    refine ⟨hall, h.aborted, hverdict, ?_, fun _ => rfl, fun _ => rfl⟩
    dsimp only
    rw [Supervisor.next, show s.token = true from hcancelled]
    rfl
  · rw [hlook]
    refine ⟨hall, h.aborted, hverdict, ?_, fun _ => rfl, fun _ => rfl⟩
    dsimp only
    rw [Supervisor.next, show s.token = false from hcancelled]
    rfl

theorem drain (h : Follows names s m) (ha : Accounted names s) (hj : s.Judged)
    (hplace : s.place = .draining) {completion : Completion} {rest : List Completion}
    (hfinished : s.finished = completion :: rest) :
    Follows names ({ s with finished := rest }.note completion) (m.step completion.event) := by
  have hmem : completion ∈ s.hand ++ s.finished := by simp [hfinished]
  have hphase : m.phase = .draining := by
    rw [h.phase, hplace]
    exact if_neg (List.ne_nil_of_mem (ha.mem_unjoined hmem))
  have hnot : m.phase ≠ .ended := by simp [hphase]
  have hwatching : m.phase ≠ .watching := by simp [hphase]
  have hcancelled := h.cancelled hnot
  rw [hplace] at hcancelled
  rw [Judged, hplace] at hj
  obtain ⟨hsome, -, htoken⟩ := hj
  have hfind := h.find?_running ha hnot hmem
  have hverdict : m.failure.or none = verdict (s.joined ++ [(completion, s.token)]) := by
    rw [verdict_append_of_isSome hsome, ← h.failure, Option.or_none]
  have hplace' : ({ s with finished := rest }.note completion).place = .draining := hplace
  have htrue : m.cancelled = true := hcancelled.trans htoken
  rw [step_event hnot hfind (if_neg hwatching), hphase, h.running hnot, htrue, ← unjoined_note]
  refine ⟨h.joined_note completion, h.aborted, hverdict, ?_, fun _ => ?_, fun _ => rfl⟩
  · rw [hplace']
    rfl
  · rw [hplace']
    exact htoken.symm

theorem leave (h : Follows names s m) (ha : Accounted names s)
    (hplace : s.place = .watching ∨ s.place = .draining) (hempty : s.Empty) :
    Follows names { s with place := .returned } m := by
  have hended : m.phase = .ended := by
    rw [h.phase]
    rcases hplace with hplace | hplace <;> rw [hplace] <;>
      exact if_pos (ha.unjoined_eq_nil hempty (by rw [hand, hplace])
        (ha.aborted_eq_nil (by simp [hplace])))
  exact ⟨h.joined, h.aborted, h.failure, hended, fun hne => absurd hended hne,
    fun hne => absurd hended hne⟩

/-- Those that run when the drain times out are aborted. There is nothing to abort if the last
process was joined just before. -/
theorem abort_nil (h : Follows names s m) (ha : Accounted names s) (hover : s.IsOver)
    (hfinished : s.finished = []) : Follows names s.abort (m.step .deadline) := by
  have haborted := ha.aborted_eq_nil (by simp [hover.1])
  have hrunning : s.running = unjoined names s := by
    have hrest := ha.rest
    rwa [haborted, ha.order, hand, hover.1, hfinished, List.append_nil, List.append_nil,
      List.append_nil, List.map_map] at hrest
  have hjoined : s.abort.joined = s.joined := by
    rw [Supervision.abort, hfinished, List.map_nil, List.append_nil]
  have hphase := h.phase
  rw [hover.1] at hphase
  by_cases hnil : unjoined names s = []
  · have hended : m.phase = .ended := hphase.trans (if_pos hnil)
    rw [Supervisor.step, if_pos hended]
    refine ⟨hjoined ▸ h.joined, ?_, hjoined ▸ h.failure, hended, fun hne => absurd hended hne,
      fun hne => absurd hended hne⟩
    rw [h.aborted, haborted]
    exact (hrunning.trans hnil).symm
  · have hdraining : m.phase = .draining := hphase.trans (if_neg hnil)
    have hnot : m.phase ≠ .ended := by simp [hdraining]
    rw [Supervisor.step, if_neg hnot, if_pos hdraining]
    exact ⟨hjoined ▸ h.joined, (h.running hnot).trans hrunning.symm, hjoined ▸ h.failure, rfl,
      fun hne => absurd rfl hne, fun hne => absurd rfl hne⟩

/-- Those that have ended when the drain times out are joined one by one before the others are
aborted. -/
theorem abort {finished : List Completion} (h : Follows names s m) (ha : Accounted names s)
    (hj : s.Judged) (hover : s.IsOver) (hfinished : s.finished = finished) :
    Follows names s.abort (m.run (finished.map Completion.event ++ [.deadline])) := by
  induction finished generalizing s m with
  | nil => exact h.abort_nil ha hover hfinished
  | cons completion rest ih =>
    rw [Accounted.abort_cons hfinished]
    have hover' : ({ s with finished := rest }.note completion).IsOver := hover
    exact ih (h.drain ha hj hover.1 hfinished) (ha.drain hover.1 hfinished)
      (hj.drain hover.1 rest) hover' rfl

/-- It comes as far with what has happened after every step. -/
theorem acted (h : Follows names s (m.run s.events)) (ha : Accounted names s) (hj : s.Judged)
    (hacted : s.Acted s') : Follows names s' (m.run s'.events) := by
  have hconcat (event : Event) : m.run (s.events ++ [event]) = (m.run s.events).step event := by
    rw [Supervisor.run, List.foldl_append]
    rfl
  cases hacted with
  | waited => exact h
  | finished hrunning => exact h.congr rfl rfl rfl rfl rfl
  | ordered =>
    rw [hconcat]
    exact h.order
  | passed time => exact h.congr rfl rfl rfl rfl rfl
  | took hplace hfinished => exact h.take ha hj hplace hfinished
  | looked hplace =>
    rw [look_events, note, hconcat]
    exact h.look ha hj hplace
  | drained hplace hfinished =>
    rw [note, hconcat]
    exact h.drain ha hj hplace hfinished
  | returned hplace hempty => exact h.leave ha hplace hempty
  | aborted hover =>
    have hevents : m.run s.abort.events
        = (m.run s.events).run (s.finished.map Completion.event ++ [.deadline]) := by
      rw [Supervision.abort, Supervisor.run, List.append_assoc, List.foldl_append]
      rfl
    rw [hevents]
    exact h.abort ha hj hover rfl

end Follows

/-! ## The supervisor comes to its end -/

/-- How many steps the supervisor takes at most to return when no process runs. -/
def rank (s : Supervision) : Nat :=
  match s.place with
  | .watching | .draining => 2 * s.finished.length + 1
  | .looking _ => 2 * s.finished.length + 2
  | .returned => 0

theorem look_rank (s : Supervision) : s.look.rank ≤ 2 * s.finished.length + 1 := by
  rcases s.look_cases with ⟨-, -, hlook⟩ | ⟨-, -, hlook⟩ | ⟨-, hlook⟩
  · rw [hlook]
    exact Nat.zero_le _
  · rw [hlook]
    exact Nat.le_refl _
  · rw [hlook]
    exact Nat.le_refl _

theorem look_running (s : Supervision) : s.look.running = s.running := by
  rcases s.look_cases with ⟨-, -, hlook⟩ | ⟨-, -, hlook⟩ | ⟨-, hlook⟩ <;> rw [hlook]

/-- The supervisor does not wait when no process runs. -/
theorem goOn_rank_lt (hrunning : s.running = []) (hplace : s.place ≠ .returned) :
    s.goOn.rank < s.rank ∧ s.goOn.running = [] := by
  unfold goOn
  split
  · rename_i hwatching hfinished
    refine ⟨?_, hrunning⟩
    simp only [rank, take, hwatching, hfinished, List.length_cons]
    omega
  · rename_i completion hlooking
    refine ⟨?_, (look_running _).trans hrunning⟩
    have hlook := (s.note completion).look_rank
    have hrank : s.rank = 2 * s.finished.length + 2 := by rw [rank, hlooking]
    rw [hrank]
    exact Nat.lt_succ_of_le hlook
  · rename_i hdraining hfinished
    refine ⟨?_, hrunning⟩
    simp only [rank, note, hdraining, hfinished, List.length_cons]
    omega
  · rename_i hwatching hfinished
    rw [if_pos hrunning]
    refine ⟨?_, hrunning⟩
    simp only [rank, hwatching]
    omega
  · rename_i hdraining hfinished
    rw [if_pos hrunning]
    refine ⟨?_, hrunning⟩
    simp only [rank, hdraining]
    omega
  · exact absurd ‹_› hplace

/-- The supervisor returns when all processes have ended. -/
theorem exists_returned (hrunning : s.running = []) :
    ∃ steps, (s.run (List.replicate steps .supervisor)).place = .returned := by
  induction hrank : s.rank using Nat.strongRecOn generalizing s with
  | _ rank ih =>
    by_cases hplace : s.place = .returned
    · exact ⟨0, hplace⟩
    · obtain ⟨hlt, hrunning'⟩ := goOn_rank_lt hrunning hplace
      obtain ⟨steps, hsteps⟩ := ih _ (hrank ▸ hlt) hrunning' rfl
      exact ⟨steps + 1, hsteps⟩

/-- The supervisor does not watch any more. -/
def Leaves (s : Supervision) : Prop := s.place = .draining ∨ s.place = .returned

theorem look_leaves (htoken : s.token = true) : s.look.Leaves := by
  rcases s.look_cases with ⟨-, -, hlook⟩ | ⟨-, -, hlook⟩ | ⟨hfalse, -⟩
  · rw [hlook]
    exact .inr rfl
  · rw [hlook]
    exact .inl rfl
  · rw [htoken] at hfalse
    cases hfalse

/-- It does not come back to watching. -/
theorem Leaves.goOn (h : s.Leaves) : s.goOn.Leaves := by
  rcases h with hplace | hplace
  · cases hfinished : s.finished with
    | nil =>
      simp only [Supervision.goOn, hplace, hfinished]
      split
      · exact .inr rfl
      · exact .inl hplace
    | cons completion rest =>
      simp only [Supervision.goOn, hplace, hfinished]
      exact .inl rfl
  · simp only [Supervision.goOn, hplace]
    exact .inr hplace

/-- Once the token is cancelled, the next process that was joined ends the watch. -/
theorem leaves_of_token (htoken : s.token = true) (hwaits : s.hand ++ s.finished ≠ []) :
    (s.run [.supervisor, .supervisor]).Leaves := by
  change s.goOn.goOn.Leaves
  cases hplace : s.place with
  | watching =>
    obtain ⟨completion, rest, hfinished⟩ : ∃ completion rest, s.finished = completion :: rest := by
      refine List.exists_cons_of_ne_nil ?_
      simpa [hand, hplace] using hwaits
    have htake : s.goOn = s.take completion rest := by
      simp only [Supervision.goOn, hplace, hfinished]
    have hlook : s.goOn.goOn = ((s.take completion rest).note completion).look := by
      rw [htake]
      rfl
    rw [hlook]
    exact look_leaves (by simp [note, take, htoken])
  | looking completion =>
    have hlook : s.goOn = (s.note completion).look := by simp only [Supervision.goOn, hplace]
    rw [hlook]
    exact (look_leaves (show (s.note completion).token = true from htoken)).goOn
  | draining => exact (show s.Leaves from .inl hplace).goOn.goOn
  | returned => exact (show s.Leaves from .inr hplace).goOn.goOn

/-- The time of the drain is counted from its beginning. -/
def Timed (s : Supervision) : Prop := s.place = .draining → ∃ since ∈ s.drainedFrom, since ≤ s.now

theorem Timed.acted (h : s.Timed) (hacted : s.Acted s') : s'.Timed := by
  cases hacted with
  | waited => exact h
  | finished hrunning => exact h
  | ordered => exact h
  | passed time =>
    intro hplace
    obtain ⟨since, hsince, hle⟩ := h hplace
    exact ⟨since, hsince, Nat.le_add_right_of_le hle⟩
  | took hplace hfinished => exact nofun
  | @looked completion hplace =>
    rcases (s.note completion).look_cases with ⟨-, -, hlook⟩ | ⟨-, -, hlook⟩ | ⟨-, hlook⟩
    · rw [hlook]
      exact nofun
    · rw [hlook]
      exact fun _ => ⟨s.now, rfl, Nat.le_refl _⟩
    · rw [hlook]
      exact nofun
  | drained hplace hfinished => exact fun _ => h hplace
  | returned hplace hempty => exact nofun
  | aborted hover => exact nofun

/-- The supervisor returns at the latest when the drain has gone on for its time. -/
theorem Timed.returned (h : s.Timed) (hplace : s.place = .draining) :
    (s.run [.passed s.drain, .timeout]).place = .returned := by
  obtain ⟨since, hsince, hle⟩ := h hplace
  have hover : (s.act (.passed s.drain)).IsOver :=
    ⟨hplace, since, hsince, Nat.add_le_add_right hle _⟩
  exact congrArg place (if_pos hover)

/-! ## Supervisions -/

/-- What is known of a supervision. -/
structure Supervised (names : List String) (s : Supervision) : Prop where
  /-- A failure cancels the token as soon as it is joined. -/
  cancels : ∀ completion ∈ s.joined.map Prod.fst ++ s.hand,
    completion.failure?.isSome → s.token = true
  /-- The processes are joined in the order in which they end. -/
  order : s.ends = s.joined.map Prod.fst ++ s.hand ++ s.finished
  /-- The supervisor returns the first failure, unless a process joined before it found the token
  cancelled. -/
  reports : s.place = .returned → ∀ failure, s.outcome = .error failure
    ↔ ∃ before first after, s.joined = before ++ first :: after ∧ first.1.failure? = some failure
      ∧ ∀ other ∈ before, other.1.failure? = none ∧ other.2 = false
  /-- Every process was joined or aborted when it returns. -/
  accounts : s.place = .returned →
    (processes names).Perm ((s.joined.map fun entry => entry.1.process) ++ s.aborted)
  /-- Only processes that have not ended are aborted. -/
  alive : ∀ process ∈ s.aborted, process.1 ∉ s.ends.map Completion.number
  /-- They are aborted once the drain has gone on for its time. -/
  aborts : s.aborted ≠ [] → ∃ since ∈ s.drainedFrom, since + s.drain ≤ s.now
  /-- The supervisor that does not tell joining from looking ends in the same way. -/
  agrees : s.place = .returned → ∃ m, m = (Supervisor.new names).run s.events
    ∧ m.phase = .ended ∧ m.outcome = s.outcome ∧ m.aborted = s.aborted
    ∧ m.joined = s.joined.map fun entry => (entry.1.number, entry.1.ending)
  /-- The next process that is joined ends the watch once the token is cancelled. -/
  leaves : s.token = true → s.hand ++ s.finished ≠ [] →
    (s.run [.supervisor, .supervisor]).Leaves
  /-- The drain ends when its time is over. -/
  ends : s.place = .draining → (s.run [.passed s.drain, .timeout]).place = .returned
  /-- The supervisor returns when no process runs any more. -/
  returns : s.running = [] → ∃ steps, (s.run (List.replicate steps .supervisor)).place = .returned

/-- What every step preserves. -/
structure Sound (names : List String) (s : Supervision) : Prop where
  /-- Every process runs, has ended or was aborted. -/
  accounted : Accounted names s
  /-- The failure and the token follow from the processes that were joined. -/
  judged : s.Judged
  /-- The supervisor that its events lead has come as far. -/
  follows : Follows names s ((Supervisor.new names).run s.events)
  /-- The time of the drain is counted from its beginning. -/
  timed : s.Timed

theorem sound_run (names : List String) (drain : Nat) (acts : List Act) :
    Sound names ((start names drain).run acts) := by
  induction acts using List.reverseRecOn with
  | nil => exact ⟨.start names drain, .start names drain, .start names drain, nofun⟩
  | append_singleton acts last ih =>
    rw [run_concat]
    have hacted := ((start names drain).run acts).acted last
    exact ⟨ih.accounted.acted hacted, ih.judged.acted hacted,
      ih.follows.acted ih.accounted ih.judged hacted, ih.timed.acted hacted⟩

namespace Sound

theorem outcome_eq (h : Sound names s) (hplace : s.place = .returned) :
    ((Supervisor.new names).run s.events).outcome = s.outcome := by
  have hjudged := h.judged
  rw [Judged, hplace] at hjudged
  have hfailure : ((Supervisor.new names).run s.events).failure = s.failure :=
    h.follows.failure.trans hjudged.1.symm
  cases hs : s.failure <;> simp only [Supervisor.outcome, outcome, hfailure, hs]

theorem outcome_eq_error_iff (h : Sound names s) (hplace : s.place = .returned)
    {failure : Failure} : s.outcome = .error failure ↔ verdict s.joined = some failure := by
  have hjudged := h.judged
  rw [Judged, hplace] at hjudged
  rw [outcome, hjudged.1]
  cases verdict s.joined <;> simp

theorem ends_eq (h : Sound names s) (hplace : s.place = .returned) :
    s.ends = s.joined.map Prod.fst := by
  rw [h.accounted.order, hand, hplace, (h.accounted.empty hplace).2, List.append_nil,
    List.append_nil]

theorem alive (h : Sound names s) {process : Nat × String} (hmem : process ∈ s.aborted) :
    process.1 ∉ s.ends.map Completion.number := by
  have hrest : process ∈ s.running ++ s.aborted := List.mem_append_right _ hmem
  rw [h.accounted.rest, mem_remaining_iff] at hrest
  exact hrest.2

theorem supervised (h : Sound names s) : Supervised names s where
  cancels _ hmem hfailure := h.judged.token_of_failure hmem hfailure
  order := h.accounted.order
  reports hplace failure := (h.outcome_eq_error_iff hplace).trans verdict_eq_some_iff
  accounts hplace := by
    have hperm := h.accounted.perm hplace
    rwa [h.ends_eq hplace, List.map_map] at hperm
  alive _ hmem := h.alive hmem
  aborts haborted := (h.accounted.aborts haborted).2
  agrees hplace := by
    refine ⟨_, rfl, ?_, h.outcome_eq hplace, h.follows.aborted, h.follows.joined⟩
    rw [h.follows.phase, hplace]
  leaves htoken hwaits := leaves_of_token htoken hwaits
  ends hplace := h.timed.returned hplace
  returns hrunning := exists_returned hrunning

end Sound

/-- All that is known of a supervision after any steps. -/
theorem supervised_run (names : List String) (drain : Nat) (acts : List Act) :
    Supervised names ((start names drain).run acts) := (sound_run names drain acts).supervised

/-- A failure that comes after the shutdown was noticed is not reported, and whoever does not end in
time is aborted. -/
example :
    let s := (start ["web", "worker", "stuck"] 30).run
      [.ordered, .ended 0 .success, .supervisor, .supervisor, .ended 1 (.failure "late"),
        .supervisor, .passed 30, .timeout]
    s.place = .returned ∧ s.outcome = .ok () ∧ s.aborted = [(2, "stuck")] := ⟨rfl, rfl, rfl⟩

end Supervision

end FieldTelemetry.Collector
