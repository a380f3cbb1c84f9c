import FieldTelemetry.Proofs.Delivery.Rows

/-!
# Alerts of overlapping deliveries

Deliveries over one channel overlap: each of them waits for its sink, counts its result in steps of
its own, tells the operators when it has to, and returns. However these steps come, the operators
are told once of every row of failures that is long enough, by the failure that makes it so.

## Main definitions

* `Stage`: how far a delivery has come
* `Deliveries`, `Event`, `Deliveries.step`: deliveries over one channel, and what happens to them

## Main results

* `Deliveries.run_alone`, `Deliveries.run_send`: a delivery without others in between does what
  `Channel.count` and `Outlet.send` say
* `Deliveries.Rows.step`, `Deliveries.Books.step`: what every step keeps of rows and of counts
* `Deliveries.returns_own`: a delivery that has ended returns its result
* `Deliveries.alerts_of_rows`: the alerts of any deliveries
-/

namespace FieldTelemetry.Delivery

/-! ## The parts of a count -/

/-- The text about a row of failures that so many failures, the latest with some error. -/
def rowText (name : String) (alertAfter : Nat) (error : SinkError) : String :=
  "export " ++ name ++ " has failed " ++ Text.decimal alertAfter ++ " times in a row, latest: "
    ++ error.message

namespace Channel

variable (channel : Channel) (error : SinkError)

/-- A success ends the row of failures. -/
def endRow : Channel := { channel with run := 0 }

/-- One more delivery has failed. -/
def addFailure : Channel := { channel with failures := channel.failures + 1 }

/-- The row of failures is longer by one. -/
def extendRow : Channel := { channel with run := channel.run + 1 }

/-- The result of a delivery by what its sink answered before the deadline, if it did. -/
def resultOf : (answer : Option Result) → Result
  | some result => result
  | none => .error (.timeout channel.name channel.timeout)

/-- What the operators are told of a failure, when its row is just long enough. -/
def alert? : Option String :=
  if channel.run = channel.alertAfter then some (channel.alertText error) else none

/-- The text about a row that was made long enough by a failure. -/
theorem alert?_extendRow : channel.extendRow.alert? error
    = if channel.run + 1 = channel.alertAfter then
        some (rowText channel.name channel.alertAfter error)
      else none := by
  change (if channel.run + 1 = channel.alertAfter then some (channel.extendRow.alertText error)
    else none) = _
  by_cases hlong : channel.run + 1 = channel.alertAfter
  · rw [if_pos hlong, if_pos hlong, rowText, ← hlong]
    rfl
  · rw [if_neg hlong, if_neg hlong]

theorem count_ok (u : Unit) : channel.count (.ok u) = (none, channel.endRow) := rfl

theorem count_error : channel.count (.error error)
    = (channel.addFailure.extendRow.alert? error, channel.addFailure.extendRow) := rfl

end Channel

/-! ## Deliveries -/

/-- How far a delivery has come. -/
inductive Stage
  /-- The sink is at work on it. -/
  | exporting
  /-- It has ended, and nothing is counted. -/
  | ended (result : Result)
  /-- It has failed, and is counted among all failures. -/
  | counted (error : SinkError)
  /-- It has failed and made its row long enough, and the operators are being told. -/
  | telling (error : SinkError) (text : String)
  /-- Its result has been returned. -/
  | returned (result : Result)
deriving DecidableEq

namespace Stage

/-- The result of a delivery that has ended. -/
def result? : Stage → Option Result
  | .exporting => none
  | .ended result => some result
  | .counted error => some (.error error)
  | .telling error _ => some (.error error)
  | .returned result => some result

/-- The result of a delivery that the row of failures takes account of. -/
def settled? : Stage → Option Result
  | .telling error _ => some (.error error)
  | .returned result => some result
  | _ => none

/-- A delivery has failed and is counted among all failures. -/
def isFailure : Stage → Bool
  | .counted _ => true
  | .telling _ _ => true
  | .returned result => failed result
  | _ => false

/-- The number of steps until a delivery that has ended returns. -/
def left : Stage → Nat
  | .exporting => 4
  | .ended _ => 3
  | .counted _ => 2
  | .telling _ _ => 1
  | .returned _ => 0

end Stage

/-- Deliveries over one channel. -/
structure Deliveries where
  /-- The channel. -/
  channel : Channel
  /-- The deliveries, in the order in which they began. -/
  stages : List Stage := []
  /-- Results in the order in which the row of failures took account of them. -/
  log : List Result := []
  /-- Texts that the operators were to be told, each with the number of the failure that it goes
  back to. -/
  alerts : List (Nat × String) := []
  /-- The operators. -/
  desk : Desk := {}

/-- What happens to deliveries. -/
inductive Event
  /-- A delivery begins. -/
  | begin
  /-- The sink answers a delivery, or the deadline of the delivery passes. -/
  | sink (delivery : Nat) (answer : Option Result)
  /-- A delivery that has ended makes its next step. What it may tell the operators reaches them or
  does not. -/
  | move (delivery : Nat) (heard : Bool)

/-- A delivery makes a step of its own. -/
def Event.moves (delivery : Nat) : Event → Bool
  | .move other _ => other == delivery
  | _ => false

namespace Deliveries

/-- Nothing was delivered over a channel. -/
def start (channel : Channel) : Deliveries := { channel }

/-- The deliveries with another stage of one of them. -/
def goTo (s : Deliveries) (delivery : Nat) (stage : Stage) : Deliveries :=
  { s with stages := s.stages.set delivery stage }

/-- The row of failures takes account of a result. -/
def settle (s : Deliveries) (channel : Channel) (result : Result) : Deliveries :=
  { s with channel, log := s.log ++ [result] }

/-- The next step of a delivery that has ended. A success ends the row of failures. A failure is
counted, and then makes the row longer. -/
def advance (s : Deliveries) (delivery : Nat) (heard : Bool) : Stage → Deliveries
  | .ended (.ok u) => (s.settle s.channel.endRow (.ok u)).goTo delivery (.returned (.ok u))
  | .ended (.error error) =>
    { s with channel := s.channel.addFailure }.goTo delivery (.counted error)
  | .counted error =>
    let channel := s.channel.extendRow
    match channel.alert? error with
    | none => (s.settle channel (.error error)).goTo delivery (.returned (.error error))
    | some text =>
      { s.settle channel (.error error) with alerts := s.alerts ++ [(s.log.length, text)] }.goTo
        delivery (.telling error text)
  | .telling error text =>
    -- The result does not depend on whether the operators were reached.
    { s with desk := if heard then s.desk.alert text else s.desk }.goTo delivery
      (.returned (.error error))
  | .exporting | .returned _ => s

/-- The deliveries after an event. An event that comes at the wrong stage changes nothing. -/
def step (s : Deliveries) : Event → Deliveries
  | .begin => { s with stages := s.stages ++ [.exporting] }
  | .sink delivery answer =>
    match s.stages[delivery]? with
    | some .exporting => s.goTo delivery (.ended (s.channel.resultOf answer))
    | _ => s
  | .move delivery heard =>
    match s.stages[delivery]? with
    | some stage => s.advance delivery heard stage
    | none => s

/-- The deliveries after events. -/
def run (s : Deliveries) (events : List Event) : Deliveries := events.foldl step s

variable {s : Deliveries} {delivery : Nat} {heard : Bool} {stage : Stage}

theorem run_cons (s : Deliveries) (event : Event) (events : List Event) :
    s.run (event :: events) = (s.step event).run events := rfl

theorem step_move (h : s.stages[delivery]? = some stage) (heard : Bool) :
    s.step (.move delivery heard) = s.advance delivery heard stage := by
  rw [step, h]

theorem step_sink (h : s.stages[delivery]? = some .exporting) (answer : Option Result) :
    s.step (.sink delivery answer) = s.goTo delivery (.ended (s.channel.resultOf answer)) := by
  rw [step, h]

theorem getElem?_goTo (h : s.stages[delivery]? = some stage) (stage' : Stage) :
    (s.goTo delivery stage').stages[delivery]? = some stage' := by
  obtain ⟨hlt, -⟩ := List.getElem?_eq_some_iff.mp h
  exact List.getElem?_set_self hlt

/-! ### One delivery alone -/

/-- The deliveries after one of them was counted as a whole. -/
def countAtOnce (s : Deliveries) (delivery : Nat) (heard : Bool) (result : Result) : Deliveries :=
  let (text, channel) := s.channel.count result
  { channel
    stages := s.stages.set delivery (.returned result)
    log := s.log ++ [result]
    alerts := s.alerts ++ (text.map fun text => (s.log.length, text)).toList
    desk := if heard then text.elim s.desk s.desk.alert else s.desk }

/-- A delivery that has ended, and that no other one comes in between, is counted as a whole. -/
theorem run_alone {result : Result} (h : s.stages[delivery]? = some (.ended result))
    (heard : Bool) :
    s.run [.move delivery heard, .move delivery heard, .move delivery heard]
      = s.countAtOnce delivery heard result := by
  have hrun : s.run [.move delivery heard, .move delivery heard, .move delivery heard]
      = ((s.step (.move delivery heard)).step (.move delivery heard)).step
        (.move delivery heard) := rfl
  have hstay {t : Deliveries} {result : Result}
      (ht : t.stages[delivery]? = some (.returned result)) :
      t.step (.move delivery heard) = t := step_move ht heard
  rw [hrun, step_move h]
  cases result with
  | ok u =>
    have hreturned := getElem?_goTo (s := s.settle s.channel.endRow (.ok u)) h (.returned (.ok u))
    rw [advance, hstay hreturned, hstay hreturned, countAtOnce, Channel.count_ok]
    cases heard <;> simp [goTo, settle]
  | error error =>
    have hcounted := getElem?_goTo (s := { s with channel := s.channel.addFailure }) h
      (.counted error)
    rw [advance, step_move hcounted, advance, countAtOnce, Channel.count_error]
    dsimp only [goTo]
    -- The row is as long as the operators want to hear of, or it is not.
    cases halert : s.channel.addFailure.extendRow.alert? error with
    | none =>
      dsimp only
      rw [hstay (by exact getElem?_goTo hcounted _)]
      cases heard <;> simp [settle]
    | some text =>
      dsimp only
      rw [step_move (by exact getElem?_goTo hcounted _)]
      simp [advance, goTo, settle]

/-! ### Rows and alerts -/

/-- The operators are to be told of a failure: it is the one that makes its row long enough. -/
def Raises (name : String) (alertAfter : Nat) (log : List Result) (i : Nat) (text : String) :
    Prop :=
  ∃ error, log[i]? = some (.error error) ∧ lastRow (log.take (i + 1)) = alertAfter
    ∧ text = rowText name alertAfter error

section Raises

variable {name : String} {alertAfter i : Nat} {log : List Result} {text : String}

theorem Raises.lt_length (h : Raises name alertAfter log i text) : i < log.length := by
  obtain ⟨error, hget, -⟩ := h
  exact (List.getElem?_eq_some_iff.mp hget).1

/-- Later results do not change of what the operators are to be told. -/
theorem raises_concat_iff (result : Result) : Raises name alertAfter (log ++ [result]) i text
    ↔ Raises name alertAfter log i text ∨ i = log.length ∧ ∃ error, result = .error error
      ∧ lastRow log + 1 = alertAfter ∧ text = rowText name alertAfter error := by
  rcases Nat.lt_trichotomy i log.length with hlt | rfl | hgt
  · rw [Raises, List.getElem?_append_left hlt, List.take_append_of_le_length hlt, ← Raises]
    exact ⟨.inl, fun h => h.elim id fun h => absurd h.1 hlt.ne⟩
  · have hold : ¬ Raises name alertAfter log log.length text :=
      fun h => absurd h.lt_length (by omega)
    have htake : (log ++ [result]).take (log.length + 1) = log ++ [result] :=
      List.take_of_length_le (by simp)
    rw [Raises, List.getElem?_concat_length, htake]
    simp only [hold, false_or, true_and]
    refine exists_congr fun error => ?_
    rw [Option.some_inj]
    refine and_congr_right fun herror => ?_
    rw [herror, lastRow_concat_error]
  · have hnone {log' : List Result} (hlength : log'.length ≤ i) :
        ¬ Raises name alertAfter log' i text := fun h => absurd h.lt_length (by omega)
    have hlength : (log ++ [result]).length ≤ i := by simpa using hgt
    exact ⟨fun h => absurd h (hnone hlength), fun h => h.elim (fun h => absurd h (hnone hgt.le))
      fun h => absurd h.1 hgt.ne'⟩

end Raises

/-- A channel has kept its settings and has the row of failures that the results end with, and the
operators were to be told of the failures that make a row long enough, in their order. -/
structure Rows (first : Channel) (s : Deliveries) : Prop where
  /-- The name of the sink. -/
  name_eq : s.channel.name = first.name
  /-- How long a delivery may take. -/
  timeout_eq : s.channel.timeout = first.timeout
  /-- How many failures in a row the operators are told of. -/
  alertAfter_eq : s.channel.alertAfter = first.alertAfter
  /-- The row is the one at the end. -/
  run_eq : s.channel.run = lastRow s.log
  /-- The operators are told of these failures and of no others. -/
  mem_alerts_iff : ∀ i text,
    (i, text) ∈ s.alerts ↔ Raises first.name first.alertAfter s.log i text
  /-- They are told of each of them once. -/
  sorted : (s.alerts.map Prod.fst).Pairwise (· < ·)

namespace Rows

variable {first : Channel} {error : SinkError}

theorem start (name : String) (timeout alertAfter : Nat) :
    Rows { name, timeout, alertAfter } (start { name, timeout, alertAfter }) where
  name_eq := rfl
  timeout_eq := rfl
  alertAfter_eq := rfl
  run_eq := rfl
  mem_alerts_iff i text := by
    refine ⟨nofun, ?_⟩
    rintro ⟨error, ⟨⟩, -⟩
  sorted := .nil

/-- Rows and alerts depend on the settings and the row of the channel, on the log and on the texts
for the operators alone. -/
theorem frame {t : Deliveries} (h : Rows first s)
    (hchannel : (t.channel.name, t.channel.timeout, t.channel.alertAfter, t.channel.run)
      = (s.channel.name, s.channel.timeout, s.channel.alertAfter, s.channel.run))
    (hlog : t.log = s.log) (halerts : t.alerts = s.alerts) : Rows first t := by
  simp only [Prod.mk.injEq] at hchannel
  obtain ⟨hname, htimeout, halertAfter, hrun⟩ := hchannel
  constructor
  · rw [hname, h.name_eq]
  · rw [htimeout, h.timeout_eq]
  · rw [halertAfter, h.alertAfter_eq]
  · rw [hrun, hlog, h.run_eq]
  · rw [halerts, hlog]
    exact h.mem_alerts_iff
  · rw [halerts]
    exact h.sorted

/-- A success ends the row. -/
theorem settle_ok (h : Rows first s) (u : Unit) :
    Rows first (s.settle s.channel.endRow (.ok u)) where
  name_eq := h.name_eq
  timeout_eq := h.timeout_eq
  alertAfter_eq := h.alertAfter_eq
  run_eq := (lastRow_concat_ok s.log u).symm
  mem_alerts_iff i text := by
    refine (h.mem_alerts_iff i text).trans ?_
    rw [settle, raises_concat_iff]
    simp
  sorted := h.sorted

/-- A failure makes the row longer, and the operators are to be told when it is long enough. -/
theorem settle_error (h : Rows first s) (error : SinkError) :
    Rows first { s.settle s.channel.extendRow (.error error) with
      alerts := s.alerts
        ++ ((s.channel.extendRow.alert? error).map fun text => (s.log.length, text)).toList } where
  name_eq := h.name_eq
  timeout_eq := h.timeout_eq
  alertAfter_eq := h.alertAfter_eq
  run_eq := by
    have hrow : s.channel.extendRow.run = s.channel.run + 1 := rfl
    change s.channel.extendRow.run = lastRow (s.log ++ [.error error])
    rw [hrow, h.run_eq, lastRow_concat_error]
  mem_alerts_iff i text := by
    have halert := s.channel.alert?_extendRow error
    rw [h.name_eq, h.alertAfter_eq, h.run_eq] at halert
    dsimp only [settle]
    rw [List.mem_append, h.mem_alerts_iff, raises_concat_iff, halert]
    refine or_congr_right ?_
    split
    · rename_i hlong
      simp [hlong]
    · rename_i hshort
      simp [hshort]
  sorted := by
    rw [List.map_append, List.pairwise_append]
    refine ⟨h.sorted, ?_, ?_⟩
    · cases s.channel.extendRow.alert? error <;> simp
    · intro i hi j hj
      obtain ⟨⟨i, text⟩, hmem, rfl⟩ := List.mem_map.mp hi
      have hlt := ((h.mem_alerts_iff i text).mp hmem).lt_length
      obtain ⟨⟨j, text'⟩, hmem', rfl⟩ := List.mem_map.mp hj
      obtain ⟨_, -, heq⟩ := Option.map_eq_some_iff.mp (Option.mem_toList.mp hmem')
      rw [← (Prod.mk.inj heq).1]
      exact hlt

theorem advance (h : Rows first s) (delivery : Nat) (heard : Bool) (stage : Stage) :
    Rows first (s.advance delivery heard stage) := by
  cases stage with
  | exporting => exact h
  | ended result =>
    cases result with
    | ok u => exact (h.settle_ok u).frame rfl rfl rfl
    | error error => exact h.frame rfl rfl rfl
  | counted error =>
    have herror := h.settle_error error
    rw [Deliveries.advance]
    dsimp only
    cases halert : s.channel.extendRow.alert? error with
    | none =>
      rw [halert, Option.map_none, Option.toList_none, List.append_nil] at herror
      exact herror.frame rfl rfl rfl
    | some text =>
      rw [halert] at herror
      exact herror.frame rfl rfl rfl
  | telling error text => exact h.frame rfl rfl rfl
  | returned result => exact h

/-- No event tells the operators of anything else. -/
theorem step (h : Rows first s) (event : Event) : Rows first (s.step event) := by
  cases event with
  | begin => exact h.frame rfl rfl rfl
  | sink delivery answer =>
    rw [Deliveries.step]
    split
    · exact h.frame rfl rfl rfl
    · exact h
  | move delivery heard =>
    rw [Deliveries.step]
    split
    · exact h.advance ..
    · exact h

theorem run (h : Rows first s) (events : List Event) :
    Rows first (s.run events) := by
  induction events generalizing s with
  | nil => exact h
  | cons event events ih => exact ih (h.step event)

end Rows

/-! ### Counts and results -/

/-- All failures are counted, and every result is taken account of once. -/
structure Books (s : Deliveries) : Prop where
  /-- The channel counts the deliveries that have failed. -/
  failures_eq : s.channel.failures = s.stages.countP Stage.isFailure
  /-- The log has the results of the deliveries that the row takes account of. -/
  perm : s.log.Perm (s.stages.filterMap Stage.settled?)

namespace Books

theorem start (name : String) (timeout alertAfter : Nat) :
    Books (start { name, timeout, alertAfter }) where
  failures_eq := rfl
  perm := .nil

/-- Counts stay right when one delivery comes to another stage, and its result is added to the log
where the row takes account of it now. -/
theorem set {t : Deliveries} {stage' : Stage} {added : List Result} (h : Books s)
    (hstage : s.stages[delivery]? = some stage) (hset : t.stages = s.stages.set delivery stage')
    (hlog : t.log = s.log ++ added)
    (hsettled : stage'.settled?.toList = stage.settled?.toList ++ added)
    (hfailures : t.channel.failures + stage.isFailure.toNat
      = s.channel.failures + stage'.isFailure.toNat) : Books t := by
  obtain ⟨hlt, rfl⟩ := List.getElem?_eq_some_iff.mp hstage
  -- Up to their order, the deliveries are this one and the others.
  have hbefore : s.stages.Perm (s.stages[delivery] :: s.stages.eraseIdx delivery) :=
    (List.getElem_cons_eraseIdx_perm hlt).symm
  have hbehind : t.stages.Perm (stage' :: s.stages.eraseIdx delivery) :=
    hset ▸ List.set_perm_cons_eraseIdx hlt stage'
  constructor
  · have hold := h.failures_eq
    rw [hbefore.countP_eq, List.countP_cons] at hold
    rw [hbehind.countP_eq, List.countP_cons]
    have htoNat (b : Bool) : (if b then 1 else 0) = b.toNat := by cases b <;> rfl
    rw [htoNat] at hold ⊢
    omega
  · have hcons (stage : Stage) (rest : List Stage) : (stage :: rest).filterMap Stage.settled?
        = stage.settled?.toList ++ rest.filterMap Stage.settled? := by
      cases hsome : stage.settled? <;> simp [hsome]
    have hold := h.perm.trans (hbefore.filterMap _)
    rw [hcons] at hold
    refine .trans ?_ (hbehind.filterMap _).symm
    rw [hlog, hcons, hsettled, List.append_assoc]
    refine (hold.append_right added).trans ?_
    rw [List.append_assoc]
    exact List.perm_append_comm.append_left _

theorem advance (h : Books s) (hstage : s.stages[delivery]? = some stage) (heard : Bool) :
    Books (s.advance delivery heard stage) := by
  cases stage with
  | exporting => exact h
  | ended result =>
    cases result with
    | ok u => exact h.set hstage rfl rfl rfl rfl
    | error error => exact h.set hstage rfl (List.append_nil _).symm rfl rfl
  | counted error =>
    rw [Deliveries.advance]
    dsimp only
    split
    · exact h.set hstage rfl rfl rfl rfl
    · exact h.set hstage rfl rfl rfl rfl
  | telling error text => exact h.set hstage rfl (List.append_nil _).symm rfl rfl
  | returned result => exact h

/-- No event is counted twice or left out. -/
theorem step (h : Books s) (event : Event) : Books (s.step event) := by
  cases event with
  | begin =>
    rw [Deliveries.step]
    constructor
    · simpa [Stage.isFailure] using h.failures_eq
    · have hnone : [Stage.exporting].filterMap Stage.settled? = [] := rfl
      rw [List.filterMap_append, hnone, List.append_nil]
      exact h.perm
  | sink delivery answer =>
    rw [Deliveries.step]
    split
    · rename_i hstage
      exact h.set hstage rfl (List.append_nil _).symm rfl rfl
    · exact h
  | move delivery heard =>
    rw [Deliveries.step]
    split
    · rename_i hstage
      exact h.advance hstage heard
    · exact h

theorem run (h : Books s) (events : List Event) : Books (s.run events) := by
  induction events generalizing s with
  | nil => exact h
  | cons event events ih => exact ih (h.step event)

end Books

/-- A delivery that has ended keeps its result and comes closer to its return by a step of its
own. -/
theorem advance_spec {result : Result} (h : s.stages[delivery]? = some stage)
    (hresult : stage.result? = some result) (heard : Bool) :
    ∃ stage', (s.advance delivery heard stage).stages[delivery]? = some stage'
      ∧ stage'.result? = some result ∧ stage'.left ≤ stage.left - 1 := by
  obtain ⟨hlt, -⟩ := List.getElem?_eq_some_iff.mp h
  have hset (stage' : Stage) : (s.stages.set delivery stage')[delivery]? = some stage' :=
    List.getElem?_set_self hlt
  cases stage with
  | exporting => cases hresult
  | ended result =>
    cases result with
    | ok u => exact ⟨_, hset _, hresult, Nat.zero_le _⟩
    | error error => exact ⟨_, hset _, hresult, le_rfl⟩
  | counted error =>
    rw [advance]
    dsimp only
    split
    · exact ⟨_, hset _, hresult, Nat.zero_le _⟩
    · exact ⟨_, hset _, hresult, le_rfl⟩
  | telling error text => exact ⟨_, hset _, hresult, le_rfl⟩
  | returned result => exact ⟨_, h, hresult, le_rfl⟩

/-- A step of one delivery leaves the others where they are. -/
theorem advance_other {other : Nat} (h : delivery ≠ other) :
    (s.advance delivery heard stage).stages[other]? = s.stages[other]? := by
  have hset (stage' : Stage) : (s.stages.set delivery stage')[other]? = s.stages[other]? :=
    List.getElem?_set_ne h
  cases stage with
  | exporting => rfl
  | ended result => cases result <;> exact hset _
  | counted error =>
    rw [advance]
    dsimp only
    split <;> exact hset _
  | telling error text => exact hset _
  | returned result => rfl

/-- No event changes the result of a delivery that has ended. -/
theorem step_ended {result : Result} (h : s.stages[delivery]? = some stage)
    (hresult : stage.result? = some result) (event : Event) :
    ∃ stage', (s.step event).stages[delivery]? = some stage' ∧ stage'.result? = some result
      ∧ stage'.left ≤ stage.left - (event.moves delivery).toNat := by
  cases event with
  | begin =>
    obtain ⟨hlt, -⟩ := List.getElem?_eq_some_iff.mp h
    exact ⟨stage, (List.getElem?_append_left hlt).trans h, hresult, le_rfl⟩
  | sink other answer =>
    have hkeep : (s.step (.sink other answer)).stages[delivery]? = some stage := by
      rw [step]
      split
      · rename_i hother
        -- The sink is at work on the other delivery, which is not this one.
        have hne : other ≠ delivery := by
          rintro rfl
          cases h.symm.trans hother
          cases hresult
        exact (List.getElem?_set_ne hne).trans h
      · exact h
    exact ⟨stage, hkeep, hresult, le_rfl⟩
  | move other heard =>
    by_cases hother : other = delivery
    · subst hother
      have hmoves : (Event.moves other (.move other heard)).toNat = 1 := by simp [Event.moves]
      rw [step_move h, hmoves]
      exact advance_spec h hresult heard
    · have hkeep : (s.step (.move other heard)).stages[delivery]? = some stage := by
        rw [step]
        split
        · exact (advance_other hother).trans h
        · exact h
      have hmoves : (Event.moves delivery (.move other heard)).toNat = 0 := by
        simp [Event.moves, hother]
      exact ⟨stage, hkeep, hresult, by rw [hmoves]; exact le_rfl⟩

/-- A delivery that has ended keeps its result through any events, and comes closer to its return
with every step of its own. -/
theorem run_ended {result : Result} (h : s.stages[delivery]? = some stage)
    (hresult : stage.result? = some result) (events : List Event) :
    ∃ stage', (s.run events).stages[delivery]? = some stage' ∧ stage'.result? = some result
      ∧ stage'.left ≤ stage.left - events.countP (Event.moves delivery) := by
  induction events generalizing s stage with
  | nil => exact ⟨stage, h, hresult, le_rfl⟩
  | cons event events ih =>
    obtain ⟨stage₁, hstage₁, hresult₁, hleft₁⟩ := step_ended h hresult event
    obtain ⟨stage', hstage', hresult', hleft'⟩ := ih hstage₁ hresult₁
    refine ⟨stage', hstage', hresult', ?_⟩
    rw [List.countP_cons]
    cases hmoves : event.moves delivery <;> simp [hmoves] at hleft₁ ⊢ <;> omega

/-- A delivery returns what its sink answered, or that its deadline has passed, and nothing else. It
has returned after three steps of its own, whatever happens in between and whether the operators are
reached or not. -/
theorem returns_own (h : s.stages[delivery]? = some .exporting) (answer : Option Result)
    (events : List Event) :
    let stage? := (s.run (.sink delivery answer :: events)).stages[delivery]?
    (∀ result, stage? = some (.returned result) → result = s.channel.resultOf answer)
      ∧ (3 ≤ events.countP (Event.moves delivery) →
        stage? = some (.returned (s.channel.resultOf answer))) := by
  intro stage?
  have hended : (s.step (.sink delivery answer)).stages[delivery]?
      = some (.ended (s.channel.resultOf answer)) := by
    rw [step_sink h]
    exact getElem?_goTo h _
  obtain ⟨stage', hstage', hresult', hleft⟩ := run_ended hended rfl events
  have hstage? : stage? = some stage' := hstage'
  refine ⟨?_, ?_⟩
  · intro result hreturned
    rw [hstage?, Option.some_inj] at hreturned
    subst hreturned
    exact Option.some_inj.mp hresult'
  · intro hmoves
    have hzero : stage'.left = 0 := by
      have hthree : (Stage.ended (s.channel.resultOf answer)).left = 3 := rfl
      omega
    refine hstage?.trans (congrArg some ?_)
    cases stage' with
    | returned result => exact congrArg Stage.returned (Option.some_inj.mp hresult')
    | exporting | ended | counted | telling => cases hzero

/-- A delivery over a channel is one of these that no other comes in between and whose alert is
heard. -/
theorem run_send (outlet : Outlet) (h : s.channel = outlet.channel) (record : SensorRecord) :
    let sent := outlet.send s.desk record
    let delivery := s.stages.length
    let s' := s.run [.begin, .sink delivery (some sent.1), .move delivery true,
      .move delivery true, .move delivery true]
    s'.channel = sent.2.1.channel ∧ s'.desk = sent.2.2
      ∧ s'.stages = s.stages ++ [.returned sent.1] := by
  intro sent delivery s'
  have hbegun : (s.step .begin).stages[delivery]? = some .exporting :=
    List.getElem?_concat_length ..
  have hended : (s.step .begin).step (.sink delivery (some sent.1))
      = (s.step .begin).goTo delivery (.ended sent.1) := step_sink hbegun (some sent.1)
  have hs' : s' = ((s.step .begin).goTo delivery (.ended sent.1)).countAtOnce delivery true
      sent.1 := by
    change s.run _ = _
    rw [run_cons, run_cons, hended, run_alone (getElem?_goTo hbegun _) true]
  have hchannel : ((s.step .begin).goTo delivery (.ended sent.1)).channel = outlet.channel := h
  rw [hs', countAtOnce, hchannel]
  refine ⟨rfl, rfl, ?_⟩
  change ((s.stages ++ [Stage.exporting]).set s.stages.length _).set s.stages.length _ = _
  simp

/-- Of deliveries over one channel, which overlap in any way, the operators are told of the rows of
failures that are long enough, of each one by the failure that makes it so. Rows are those of the
results in the order in which the row of failures took account of them, which are the results of all
deliveries that have come so far. The channel counts all failures, and has the length of the row
that the results end with. A delivery returns its own result, whether the operators are reached or
not.

Neither number is ever greater than the number of deliveries, so both fit a word of 32 bits as long
as that one does. -/
theorem alerts_of_rows (name : String) (timeout : Nat) {alertAfter : Nat} (h : 0 < alertAfter)
    (events : List Event) :
    let first : Channel := { name, timeout, alertAfter }
    let s := (start first).run events
    s.alerts.length
        = {row : Nat × Nat | IsRow s.log row.1 row.2 ∧ alertAfter ≤ row.2}.ncard
      ∧ (∀ i text, (i, text) ∈ s.alerts ↔ ∃ start length error, IsRow s.log start length
        ∧ alertAfter ≤ length ∧ i + 1 = start + alertAfter ∧ s.log[i]? = some (.error error)
        ∧ text = rowText name alertAfter error)
      ∧ s.log.Perm (s.stages.filterMap Stage.settled?)
      ∧ s.channel.failures = s.stages.countP Stage.isFailure
      ∧ s.channel.run = lastRow s.log
      ∧ ∀ delivery answer later, s.stages[delivery]? = some .exporting →
        let stage? := (s.run (.sink delivery answer :: later)).stages[delivery]?
        (∀ result, stage? = some (.returned result) → result = first.resultOf answer)
          ∧ (3 ≤ later.countP (Event.moves delivery) →
            stage? = some (.returned (first.resultOf answer))) := by
  intro first s
  have hrows : Rows first s := (Rows.start name timeout alertAfter).run events
  have hbooks : Books s := (Books.start name timeout alertAfter).run events
  -- A failure makes its row long enough exactly when it has that number in it.
  have hraises (i : Nat) (text : String) : (i, text) ∈ s.alerts ↔ ∃ start length error,
      IsRow s.log start length ∧ alertAfter ≤ length ∧ i + 1 = start + alertAfter
        ∧ s.log[i]? = some (.error error) ∧ text = rowText name alertAfter error := by
    rw [hrows.mem_alerts_iff]
    constructor
    · rintro ⟨error, hget, hlast, htext⟩
      have hi := (List.getElem?_eq_some_iff.mp hget).1
      obtain ⟨start, length, hrow, hle, hsum⟩ := (lastRow_take_eq_iff_row hi h).mp hlast
      exact ⟨start, length, error, hrow, hle, hsum, hget, htext⟩
    · rintro ⟨start, length, error, hrow, hle, hsum, hget, htext⟩
      have hi := (List.getElem?_eq_some_iff.mp hget).1
      exact ⟨error, hget, (lastRow_take_eq_iff_row hi h).mpr ⟨start, length, hrow, hle, hsum⟩,
        htext⟩
  refine ⟨?_, hraises, hbooks.perm, hbooks.failures_eq, hrows.run_eq, ?_⟩
  · rw [← List.length_map (f := Prod.fst)]
    refine length_eq_ncard_rows h hrows.sorted.nodup fun i => ?_
    rw [List.mem_map]
    constructor
    · rintro ⟨⟨i, text⟩, hmem, rfl⟩
      obtain ⟨start, length, error, hrow, hle, hsum, -⟩ := (hraises i text).mp hmem
      exact ⟨start, length, hrow, hle, hsum⟩
    · rintro ⟨start, length, hrow, hle, hsum⟩
      obtain ⟨error, hget⟩ := hrow.failed i (by omega) (by omega)
      exact ⟨(i, rowText name alertAfter error),
        (hraises i _).mpr ⟨start, length, error, hrow, hle, hsum, hget, rfl⟩, rfl⟩
  · intro delivery answer later hstage
    have hresult : first.resultOf answer = s.channel.resultOf answer := by
      cases answer with
      | some result => rfl
      | none => rw [Channel.resultOf, Channel.resultOf, hrows.name_eq, hrows.timeout_eq]
    rw [hresult]
    exact returns_own hstage answer later

/-- Two deliveries fail at once. The one that its sink refused is taken account of first, so the one
whose deadline has passed is the second in the row. A third one returns while the operators are
being told, who are not reached. -/
theorem alerts_of_rows_overlap :
    let events : List Event := [.begin, .begin, .begin, .sink 0 none,
      .sink 1 (some (.error (.failed "archive" "full"))), .move 0 true, .move 1 true, .move 1 true,
      .move 0 true]
    let later : List Event := [.move 2 true, .move 0 false, .move 2 true, .move 2 true]
    let s := (start { name := "archive", timeout := 50, alertAfter := 2 }).run events
    s.log = [.error (.failed "archive" "full"), .error (.timeout "archive" 50)]
      ∧ s.alerts.map Prod.fst = [1]
      ∧ {row : Nat × Nat | IsRow s.log row.1 row.2 ∧ 2 ≤ row.2}.ncard = 1
      ∧ s.channel.failures = 2
      ∧ (s.run (.sink 2 (some (.ok ())) :: later)).stages[2]? = some (.returned (.ok ())) := by
  intro events later s
  obtain ⟨hrows, -, -, -, -, hreturns⟩ := alerts_of_rows "archive" 50 (by decide : 0 < 2) events
  exact ⟨rfl, rfl, hrows.symm, rfl, (hreturns 2 (some (.ok ())) later rfl).2 (by decide)⟩

end Deliveries

end FieldTelemetry.Delivery
