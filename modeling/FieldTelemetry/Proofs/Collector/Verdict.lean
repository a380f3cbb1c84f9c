import FieldTelemetry.Proofs.Collector.Supervision
import Mathlib.Data.List.Induction
import Mathlib.Data.List.Nodup

/-!
# What the supervisor returns

The first process that fails decides what the supervisor returns, unless one that was joined before
it found the token cancelled. Failures after that are not reported. When the supervisor returns, it
has joined every process, or the drain has timed out and those that ran on were aborted.

## Main definitions

* `Supervision.verdict`: what the processes that were joined decide
* `Supervision.Accounted`: every process runs, has ended or was aborted
* `Supervision.Judged`: the failure and the token follow from the processes that were joined

## Main results

* `Supervision.verdict_eq_some_iff`: which failure is decided on
* `Supervision.Accounted.acted`, `Supervision.Judged.acted`: every step keeps the accounts and the
  judgement
* `Supervision.Judged.token_of_failure`: a failure that was joined has cancelled the token
-/

namespace FieldTelemetry.Collector

namespace Supervision

/-! ## The verdict -/

/-- A process that was joined decides what is returned: it has failed, or it found the token
cancelled. -/
def isDecisive (joined : Completion × Bool) : Bool := joined.1.failure?.isSome || joined.2

/-- The failure that the processes that were joined decide on: that of the first decisive one. -/
def verdict (joined : List (Completion × Bool)) : Option Failure :=
  (joined.find? isDecisive).bind fun first => first.1.failure?

section Verdict

variable {joined : List (Completion × Bool)} {first : Completion × Bool}

theorem find?_concat_of_none (h : joined.find? isDecisive = none) :
    (joined ++ [first]).find? isDecisive = if isDecisive first then some first else none := by
  rw [List.find?_append, h, Option.none_or, List.find?_singleton]

theorem verdict_of_none (h : joined.find? isDecisive = none) : verdict joined = none := by
  rw [verdict, h]
  rfl

/-- The first decisive one reports its failure, if it has failed. -/
theorem verdict_concat_of_none (h : joined.find? isDecisive = none) :
    verdict (joined ++ [first]) = first.1.failure? := by
  rw [verdict, find?_concat_of_none h]
  by_cases hfirst : isDecisive first = true
  · rw [if_pos hfirst]
    rfl
  · rw [if_neg hfirst]
    rw [isDecisive, Bool.or_eq_true, not_or, Option.not_isSome_iff_eq_none] at hfirst
    exact hfirst.1.symm

/-- Those after the first decisive one do not matter. -/
theorem verdict_append_of_isSome (h : (joined.find? isDecisive).isSome)
    (later : List (Completion × Bool)) : verdict (joined ++ later) = verdict joined := by
  rw [verdict, List.find?_append, Option.or_of_isSome h, verdict]

/-- A failure is decided on when all that were joined before it had no failure and found the token
as it was. -/
theorem verdict_eq_some_iff {failure : Failure} : verdict joined = some failure
    ↔ ∃ before first after, joined = before ++ first :: after ∧ first.1.failure? = some failure
      ∧ ∀ other ∈ before, other.1.failure? = none ∧ other.2 = false := by
  have hclean (other : Completion × Bool) :
      (!isDecisive other) = true ↔ other.1.failure? = none ∧ other.2 = false := by
    simp [isDecisive]
  simp only [verdict, Option.bind_eq_some_iff, List.find?_eq_some_iff_append, hclean]
  constructor
  · rintro ⟨first, ⟨-, before, after, hsplit, hbefore⟩, hfailure⟩
    exact ⟨before, first, after, hsplit, hfailure, hbefore⟩
  · rintro ⟨before, first, after, hsplit, hfailure, hbefore⟩
    exact ⟨first, ⟨by simp [isDecisive, hfailure], before, after, hsplit, hbefore⟩, hfailure⟩

end Verdict

/-! ## Every process is accounted for -/

/-- The process that was joined before the supervisor looks at the token. -/
def hand (s : Supervision) : List Completion :=
  match s.place with
  | .looking completion => [completion]
  | _ => []

/-- The processes of some names. -/
def processes (names : List String) : List (Nat × String) := (Supervisor.new names).running

theorem nodup_processes (names : List String) : ((processes names).map Prod.fst).Nodup := by
  have hnumbers : (processes names).map Prod.fst = names.zipIdx.map Prod.snd := by
    rw [processes, Supervisor.new, List.map_map]
    rfl
  rw [hnumbers, List.zipIdx_map_snd]
  exact List.nodup_range'

/-- The processes without those of some numbers. -/
def remaining (names : List String) (gone : List Nat) : List (Nat × String) :=
  (processes names).filter fun process => process.1 ∉ gone

theorem mem_remaining_iff {names : List String} {gone : List Nat} {process : Nat × String} :
    process ∈ remaining names gone ↔ process ∈ processes names ∧ process.1 ∉ gone := by
  rw [remaining, List.mem_filter, decide_eq_true_iff]

theorem remaining_concat (names : List String) (gone : List Nat) (number : Nat) :
    remaining names (gone ++ [number]) = (remaining names gone).filter (·.1 ≠ number) := by
  simp [remaining, List.filter_filter, and_comm]

/-- Every process runs, has ended or was aborted. -/
structure Accounted (names : List String) (s : Supervision) : Prop where
  /-- The processes are joined in the order in which they end. -/
  order : s.ends = s.joined.map Prod.fst ++ s.hand ++ s.finished
  /-- Only the processes of the names end. -/
  known : ∀ completion ∈ s.ends, completion.process ∈ processes names
  /-- Each of them ends once. -/
  once : (s.ends.map Completion.number).Nodup
  /-- All others run or were aborted. -/
  rest : s.running ++ s.aborted = remaining names (s.ends.map Completion.number)
  /-- Processes are aborted when the drain has timed out, before the supervisor returns. -/
  aborts : s.aborted ≠ [] → s.place = .returned ∧ ∃ since ∈ s.drainedFrom, since + s.drain ≤ s.now
  /-- The supervisor leaves no process behind. -/
  empty : s.place = .returned → s.Empty

variable {names : List String} {s s' : Supervision}

namespace Accounted

theorem start (names : List String) (drain : Nat) : Accounted names (start names drain) where
  order := rfl
  known := nofun
  once := .nil
  rest := by
    simp [Supervision.start, remaining, processes]
  aborts h := absurd rfl h
  empty := nofun

theorem aborted_eq_nil (h : Accounted names s) (hplace : s.place ≠ .returned) : s.aborted = [] := by
  by_contra haborted
  exact hplace (h.aborts haborted).1

/-- A process that runs has not ended. -/
theorem not_mem_ends (h : Accounted names s) {process : Nat × String}
    (hrunning : process ∈ s.running) :
    process ∈ processes names ∧ process.1 ∉ s.ends.map Completion.number := by
  have hmem : process ∈ s.running ++ s.aborted := List.mem_append_left _ hrunning
  rwa [h.rest, mem_remaining_iff] at hmem

theorem finish (h : Accounted names s) {completion : Completion}
    (hrunning : completion.process ∈ s.running) : Accounted names (s.finish completion) := by
  obtain ⟨hknown, hnew⟩ := h.not_mem_ends hrunning
  have hplace : s.place ≠ .returned := fun heq => by
    rw [(h.empty heq).1] at hrunning
    cases hrunning
  have haborted := h.aborted_eq_nil hplace
  refine ⟨?_, ?_, ?_, ?_, h.aborts, fun heq => absurd heq hplace⟩
  · simp only [Supervision.finish]
    rw [h.order, List.append_assoc _ s.finished]
    rfl
  · intro other hother
    rcases List.mem_append.mp hother with hbefore | hself
    · exact h.known other hbefore
    · rw [List.mem_singleton.mp hself]
      exact hknown
  · simp only [Supervision.finish, List.map_append, List.map_cons, List.map_nil]
    refine List.nodup_append.mpr ⟨h.once, List.nodup_singleton _, fun number hmem other hself => ?_⟩
    rw [List.mem_singleton.mp hself]
    rintro rfl
    exact hnew hmem
  · have hrest := h.rest
    rw [haborted, List.append_nil] at hrest
    change s.running.filter (·.1 ≠ completion.number) ++ s.aborted
      = remaining names ((s.ends ++ [completion]).map Completion.number)
    rw [haborted, List.append_nil, hrest, List.map_append, List.map_singleton, remaining_concat]

/-- Joining and looking change nothing about who has ended. -/
theorem congr (h : Accounted names s) (hends : s'.ends = s.ends)
    (horder : s'.joined.map Prod.fst ++ s'.hand ++ s'.finished
      = s.joined.map Prod.fst ++ s.hand ++ s.finished)
    (hrunning : s'.running = s.running) (haborted : s'.aborted = s.aborted)
    (hplace : s.place ≠ .returned) (hempty : s'.place = .returned → s'.Empty) :
    Accounted names s' := by
  refine ⟨?_, ?_, ?_, ?_, ?_, hempty⟩
  · rw [hends, horder, h.order]
  · rw [hends]
    exact h.known
  · rw [hends]
    exact h.once
  · rw [hrunning, haborted, hends]
    exact h.rest
  · rw [haborted, h.aborted_eq_nil hplace]
    exact fun hne => absurd rfl hne

theorem look (h : Accounted names s) {completion : Completion}
    (hplace : s.place = .looking completion) : Accounted names (s.note completion).look := by
  have hnot : s.place ≠ .returned := by simp [hplace]
  have horder : (s.joined ++ [(completion, s.token)]).map Prod.fst ++ [] ++ s.finished
      = s.joined.map Prod.fst ++ s.hand ++ s.finished := by
    simp [hand, hplace]
  rcases (s.note completion).look_cases with ⟨-, hempty, hlook⟩ | ⟨-, -, hlook⟩ | ⟨-, hlook⟩
  · rw [hlook]
    exact h.congr rfl horder rfl rfl hnot fun _ => hempty
  · rw [hlook]
    exact h.congr rfl horder rfl rfl hnot nofun
  · rw [hlook]
    exact h.congr rfl horder rfl rfl hnot nofun

theorem drain (h : Accounted names s) {completion : Completion} {rest : List Completion}
    (hplace : s.place = .draining) (hfinished : s.finished = completion :: rest) :
    Accounted names ({ s with finished := rest }.note completion) := by
  refine h.congr rfl ?_ rfl rfl (by simp [hplace]) ?_
  · simp [hand, note, hplace, hfinished]
  · intro hreturned
    rw [note, hplace] at hreturned
    cases hreturned

/-- The drain may time out while processes wait to be joined: they are joined all the same. -/
theorem abort_cons {completion : Completion} {rest : List Completion}
    (hfinished : s.finished = completion :: rest) :
    s.abort = ({ s with finished := rest }.note completion).abort := by
  simp [Supervision.abort, note, hfinished]

theorem abort (h : Accounted names s) (hover : s.IsOver) : Accounted names s.abort := by
  have hplace := hover.1
  have haborted := h.aborted_eq_nil (by simp [hplace])
  refine ⟨?_, h.known, h.once, ?_, fun _ => ⟨rfl, hover.2⟩, fun _ => ⟨rfl, rfl⟩⟩
  · simp only [Supervision.abort, hand]
    rw [h.order, hand, hplace, List.map_append, List.map_map, List.append_nil, List.append_nil,
      List.append_nil]
    exact congrArg _ (List.map_id _).symm
  · have hrest := h.rest
    rw [haborted, List.append_nil] at hrest
    exact hrest

/-- Every process has ended or was aborted when the supervisor returns. -/
theorem perm (h : Accounted names s) (hreturned : s.place = .returned) :
    (processes names).Perm (s.ends.map Completion.process ++ s.aborted) := by
  have haborted : s.aborted = remaining names (s.ends.map Completion.number) := by
    rw [← h.rest, (h.empty hreturned).1, List.nil_append]
  have hnodup : (s.ends.map Completion.process).Nodup := by
    refine List.Nodup.of_map Prod.fst ?_
    rw [List.map_map]
    exact h.once
  have hended : ((processes names).filter fun process =>
      process.1 ∈ s.ends.map Completion.number).Perm (s.ends.map Completion.process) := by
    refine (List.perm_ext_iff_of_nodup ((nodup_processes names).of_map.filter _) hnodup).mpr
      fun process => ?_
    rw [List.mem_filter, decide_eq_true_iff]
    constructor
    · rintro ⟨hknown, hnumber⟩
      obtain ⟨completion, hmem, heq⟩ := List.mem_map.mp hnumber
      have hsame : completion.process = process :=
        List.inj_on_of_nodup_map (nodup_processes names) (h.known completion hmem) hknown heq
      exact List.mem_map.mpr ⟨completion, hmem, hsame⟩
    · intro hmem
      obtain ⟨completion, hends, rfl⟩ := List.mem_map.mp hmem
      exact ⟨h.known completion hends, List.mem_map.mpr ⟨completion, hends, rfl⟩⟩
  have hsplit := List.filter_append_perm
    (fun process : Nat × String => process.1 ∈ s.ends.map Completion.number) (processes names)
  rw [haborted, remaining]
  simp only [decide_not]
  exact hsplit.symm.trans (hended.append_right _)

/-- Every step leaves every process accounted for. -/
theorem acted (h : Accounted names s) (hacted : s.Acted s') : Accounted names s' := by
  cases hacted with
  | waited => exact h
  | finished hrunning => exact h.finish hrunning
  | ordered => exact ⟨h.order, h.known, h.once, h.rest, h.aborts, h.empty⟩
  | passed time =>
    refine ⟨h.order, h.known, h.once, h.rest, fun haborted => ?_, h.empty⟩
    obtain ⟨hplace, since, hsince, hlate⟩ := h.aborts haborted
    exact ⟨hplace, since, hsince, Nat.le_trans hlate (Nat.le_add_right _ _)⟩
  | took hplace hfinished =>
    refine h.congr rfl ?_ rfl rfl (by simp [hplace]) nofun
    simp [hand, take, hplace, hfinished]
  | looked hplace => exact h.look hplace
  | drained hplace hfinished => exact h.drain hplace hfinished
  | returned hplace hempty =>
    have hnot : s.place ≠ .returned := by
      rcases hplace with heq | heq <;> rw [heq] <;> exact nofun
    refine h.congr rfl ?_ rfl rfl hnot fun _ => hempty
    rcases hplace with heq | heq <;> simp [hand, heq]
  | aborted hover => exact h.abort hover

end Accounted

/-! ## Failure and token -/

/-- The failure and the token follow from the processes that were joined. -/
def Judged (s : Supervision) : Prop :=
  match s.place with
  | .watching => s.joined.find? isDecisive = none ∧ s.failure = none ∧ s.token = s.ordered
  | .looking completion =>
    s.joined.find? isDecisive = none ∧ s.failure = completion.failure?
      ∧ s.token = (s.ordered || completion.failure?.isSome)
  | .draining =>
    (s.joined.find? isDecisive).isSome ∧ s.failure = verdict s.joined ∧ s.token = true
  | .returned =>
    s.failure = verdict s.joined ∧ (s.joined.find? isDecisive = none ∨ s.token = true)

namespace Judged

theorem start (names : List String) (drain : Nat) : (start names drain).Judged := ⟨rfl, rfl, rfl⟩

/-- Processes that end and time that passes do not matter. -/
theorem congr (h : s.Judged) (hplace : s'.place = s.place) (hjoined : s'.joined = s.joined)
    (hfailure : s'.failure = s.failure) (htoken : s'.token = s.token)
    (hordered : s'.ordered = s.ordered) : s'.Judged := by
  rw [Judged, hplace, hjoined, hfailure, htoken, hordered]
  exact h

/-- The shutdown may be ordered at any time. -/
theorem order (h : s.Judged) (events : List Event) :
    ({ s with token := true, ordered := true, events } : Supervision).Judged := by
  unfold Judged at h ⊢
  dsimp only
  split at h
  · exact ⟨h.1, h.2.1, rfl⟩
  · exact ⟨h.1, h.2.1, rfl⟩
  · exact ⟨h.1, h.2.1, rfl⟩
  · exact ⟨h.1, .inr rfl⟩

theorem take (h : s.Judged) (hplace : s.place = .watching) (completion : Completion)
    (rest : List Completion) : (s.take completion rest).Judged := by
  rw [Judged, hplace] at h
  obtain ⟨hnone, hfailure, htoken⟩ := h
  refine ⟨hnone, ?_, ?_⟩
  · rw [Supervision.take, hfailure, Option.none_or]
  · rw [Supervision.take, htoken]

/-- The first decisive process ends the watch. -/
theorem look (h : s.Judged) {completion : Completion} (hplace : s.place = .looking completion) :
    (s.note completion).look.Judged := by
  rw [Judged, hplace] at h
  obtain ⟨hnone, hfailure, htoken⟩ := h
  have hverdict : s.failure = verdict (s.joined ++ [(completion, s.token)]) := by
    rw [verdict_concat_of_none hnone, hfailure]
  have hdecisive : isDecisive (completion, s.token) = s.token := by
    rw [isDecisive, htoken]
    cases completion.failure?.isSome <;> simp
  have hfind : (s.note completion).joined.find? isDecisive
      = if s.token then some (completion, s.token) else none := by
    rw [note, find?_concat_of_none hnone, hdecisive]
  rcases (s.note completion).look_cases with ⟨hcancelled, -, hlook⟩ | ⟨hcancelled, -, hlook⟩
    | ⟨hcancelled, hlook⟩
  · rw [hlook]
    exact ⟨hverdict, .inr hcancelled⟩
  · rw [hlook]
    rw [if_pos (show s.token = true from hcancelled)] at hfind
    exact ⟨Option.isSome_iff_exists.mpr ⟨_, hfind⟩, hverdict, hcancelled⟩
  · rw [hlook]
    have hfalse : s.token = false := hcancelled
    rw [hfalse] at hfind htoken
    obtain ⟨hordered, hsuccess⟩ := Bool.or_eq_false_iff.mp htoken.symm
    refine ⟨hfind, ?_, hcancelled.trans hordered.symm⟩
    exact hfailure.trans (Option.not_isSome_iff_eq_none.mp (Bool.eq_false_iff.mp hsuccess))

theorem drain (h : s.Judged) {completion : Completion} (hplace : s.place = .draining)
    (rest : List Completion) : ({ s with finished := rest }.note completion).Judged := by
  rw [Judged, hplace] at h
  obtain ⟨hsome, hfailure, htoken⟩ := h
  rw [Judged, note, hplace]
  refine ⟨?_, hfailure.trans (verdict_append_of_isSome hsome _).symm, htoken⟩
  rw [List.find?_append, Option.isSome_or, hsome]
  rfl

theorem leave (h : s.Judged) (hplace : s.place = .watching ∨ s.place = .draining) :
    ({ s with place := .returned } : Supervision).Judged := by
  rcases hplace with hplace | hplace
  · rw [Judged, hplace] at h
    exact ⟨h.2.1.trans (verdict_of_none h.1).symm, .inl h.1⟩
  · rw [Judged, hplace] at h
    exact ⟨h.2.1, .inr h.2.2⟩

theorem abort (h : s.Judged) (hplace : s.place = .draining) : s.abort.Judged := by
  rw [Judged, hplace] at h
  obtain ⟨hsome, hfailure, htoken⟩ := h
  exact ⟨hfailure.trans (verdict_append_of_isSome hsome _).symm, .inr htoken⟩

/-- Failure and token follow from the processes that were joined after every step. -/
theorem acted (h : s.Judged) (hacted : s.Acted s') : s'.Judged := by
  cases hacted with
  | waited => exact h
  | finished hrunning => exact h.congr rfl rfl rfl rfl rfl
  | ordered => exact h.order _
  | passed time => exact h.congr rfl rfl rfl rfl rfl
  | took hplace hfinished => exact h.take hplace _ _
  | looked hplace => exact h.look hplace
  | drained hplace hfinished => exact h.drain hplace _
  | returned hplace hempty => exact h.leave hplace
  | aborted hover => exact h.abort hover.1

/-- The token is cancelled as soon as a failure was joined. -/
theorem token_of_failure (h : s.Judged) {completion : Completion}
    (hjoined : completion ∈ s.joined.map Prod.fst ++ s.hand)
    (hfailure : completion.failure?.isSome) : s.token = true := by
  have hdecisive (hnone : s.joined.find? isDecisive = none) :
      completion ∉ s.joined.map Prod.fst := by
    intro hmem
    obtain ⟨first, hfirst, rfl⟩ := List.mem_map.mp hmem
    have hnot := List.find?_eq_none.mp hnone first hfirst
    simp [isDecisive, hfailure] at hnot
  rw [List.mem_append] at hjoined
  cases hplace : s.place with
  | watching =>
    rw [Judged, hplace] at h
    simp only [hand, hplace, List.not_mem_nil, or_false] at hjoined
    exact absurd hjoined (hdecisive h.1)
  | looking held =>
    rw [Judged, hplace] at h
    simp only [hand, hplace, List.mem_singleton] at hjoined
    obtain rfl := hjoined.resolve_left (hdecisive h.1)
    rw [h.2.2, hfailure, Bool.or_true]
  | draining =>
    rw [Judged, hplace] at h
    exact h.2.2
  | returned =>
    rw [Judged, hplace] at h
    simp only [hand, hplace, List.not_mem_nil, or_false] at hjoined
    exact h.2.resolve_left fun hnone => hdecisive hnone hjoined

end Judged

end Supervision

end FieldTelemetry.Collector
