import FieldTelemetry.Proofs.Pipeline.Ledger
import FieldTelemetry.Proofs.Pipeline.Normalizer

/-!
# Readings and commands of a log

The outcomes of all requests have readings and commands among them. Their parts are calls for the
entities of the readings, readings for every sink, and the commands.

## Main definitions

* `readings`, `readingsOf`, `heardBy`, `commandsOf`: the readings and commands of a log
* `ledgerOf`: the parts of all outcomes

## Main results

* `callsOf_readings`, `callsOf_gateway`: the calls for an entity
* `sound_ledgerOf`: they can be stored when the numbers of all readings survive
-/

namespace FieldTelemetry.Pipeline

open Delivery (Command)
open Intake (Request)
open Json.Lossless (numbers)
open Store (Call EntityKind Origin Survive callsOf callsOf_append callsOf_singleton)

/-! ## Readings -/

/-- The readings of a log, each with its request, in the order of handling. -/
def readings (log : List (Request × Outcome)) : List (Request × SensorRecord) :=
  log.filterMap fun (request, outcome) =>
    match outcome with
    | .accepted record => some (request, record)
    | _ => none

/-- The readings of a device. -/
def readingsOf (id : String) (log : List (Request × Outcome)) : List (Request × SensorRecord) :=
  (readings log).filter fun (_, record) => record.entityId? = some id

/-- The requests whose readings came through a gateway, one for every reading. -/
def heardBy (id : String) (log : List (Request × Outcome)) : List Request :=
  ((readings log).map Prod.fst).filter fun request => request.hints.id = some id

/-- The commands of a log. -/
def commandsOf (log : List (Request × Outcome)) : List Command :=
  log.filterMap fun (_, outcome) =>
    match outcome with
    | .command c => some c
    | _ => none

/-! ## The ledger of a log -/

/-- The parts of all outcomes of a log. -/
def ledgerOf (attempts outlets : Nat) (log : List (Request × Outcome)) : List Part :=
  log.flatMap fun (request, outcome) => partsOf attempts outlets request outcome

/-- Everything that is accepted in a log is a reading of a device. -/
def Genuine (log : List (Request × Outcome)) : Prop :=
  ∀ request record, (request, Outcome.accepted record) ∈ log →
    Normalizer.IsReading request record

section Ledgers

variable {attempts outlets : Nat} {log : List (Request × Outcome)}

theorem Genuine.append_iff {log log' : List (Request × Outcome)} :
    Genuine (log ++ log') ↔ Genuine log ∧ Genuine log' := by
  simp only [Genuine, List.mem_append]
  constructor
  · intro h
    exact ⟨fun request record hmem => h request record (.inl hmem),
      fun request record hmem => h request record (.inr hmem)⟩
  · rintro ⟨hleft, hright⟩ request record (hmem | hmem)
    · exact hleft request record hmem
    · exact hright request record hmem

theorem genuine_of_processOver {τ : Type} [Stamp.StampStore τ] {request : Request}
    {clock : Nat → Time.Instant} {state state' : Normalizer.State τ} {outcomes : List Outcome}
    (h : Normalizer.processOver request clock state = .ok (outcomes, state')) :
    Genuine (outcomes.map fun outcome => (request, outcome)) := by
  intro other record hmem
  obtain ⟨outcome, houtcome, heq⟩ := List.mem_map.mp hmem
  cases heq
  exact Normalizer.isReading_of_mem_processOver h houtcome

theorem Genuine.exists_device {request : Request} {record : SensorRecord}
    (h : Genuine [(request, .accepted record)]) : ∃ device, record.entityId? = some device :=
  Option.isSome_iff_exists.mp (h request record List.mem_cons_self).1

theorem readings_append (log log' : List (Request × Outcome)) :
    readings (log ++ log') = readings log ++ readings log' :=
  List.filterMap_append

theorem readingsOf_append (id : String) (log log' : List (Request × Outcome)) :
    readingsOf id (log ++ log') = readingsOf id log ++ readingsOf id log' := by
  rw [readingsOf, readings_append, List.filter_append]
  rfl

theorem heardBy_append (id : String) (log log' : List (Request × Outcome)) :
    heardBy id (log ++ log') = heardBy id log ++ heardBy id log' := by
  rw [heardBy, readings_append, List.map_append, List.filter_append]
  rfl

theorem commandsOf_append (log log' : List (Request × Outcome)) :
    commandsOf (log ++ log') = commandsOf log ++ commandsOf log' :=
  List.filterMap_append

theorem ledgerOf_append (attempts outlets : Nat) (log log' : List (Request × Outcome)) :
    ledgerOf attempts outlets (log ++ log')
      = ledgerOf attempts outlets log ++ ledgerOf attempts outlets log' :=
  List.flatMap_append

theorem ledgerOf_request (attempts outlets : Nat) (request : Request) (outcomes : List Outcome) :
    ledgerOf attempts outlets (outcomes.map fun outcome => (request, outcome))
      = outcomes.flatMap (partsOf attempts outlets request) :=
  List.flatMap_map ..

/-- What is picked from the ledger of a log is what is picked from the log, if it is so for every
outcome. -/
theorem pick_ledgerOf {β : Type} (pick : List Part → List β)
    (pick' : List (Request × Outcome) → List β) (hnil : pick [] = pick' [])
    (happend : ∀ l l', pick (l ++ l') = pick l ++ pick l')
    (happend' : ∀ log log', pick' (log ++ log') = pick' log ++ pick' log')
    (hone : ∀ request outcome, Genuine [(request, outcome)] →
      pick (partsOf attempts outlets request outcome) = pick' [(request, outcome)])
    (h : Genuine log) : pick (ledgerOf attempts outlets log) = pick' log := by
  induction log with
  | nil => exact hnil
  | cons first log ih =>
    -- Both sides are taken apart at the first outcome.
    have hsplit : first :: log = [first] ++ log := rfl
    rw [hsplit, Genuine.append_iff] at h
    rw [hsplit, ledgerOf_append, happend, happend', ih h.2, ← hone _ _ h.1]
    congr 2
    exact List.append_nil _

theorem filterMap_exportsOf {β : Type} {pick : Part → Option β} (record : SensorRecord)
    (h : ∀ outlet, pick (.export outlet record) = none) :
    (exportsOf outlets record).filterMap pick = [] := by
  rw [List.filterMap_eq_nil_iff]
  intro part hpart
  obtain ⟨outlet, -, rfl⟩ := List.mem_map.mp hpart
  exact h outlet

theorem exportTo?_exportsOf (number : Nat) (record : SensorRecord) :
    (exportsOf outlets record).filterMap (Part.exportTo? number)
      = if number < outlets then [record] else [] := by
  -- The induction is on the number of sinks, of which the last is split off.
  induction outlets with
  | zero => rfl
  | succ outlets ih =>
    have hsplit : exportsOf (outlets + 1) record
        = exportsOf outlets record ++ [.export outlets record] := by
      rw [exportsOf, List.range_succ, List.map_append]
      rfl
    rw [hsplit]
    by_cases heq : outlets = number
    · subst heq
      rw [filterMap_concat_some (Part.exportTo?_self ..), ih, if_neg (by omega), if_pos (by omega)]
      rfl
    · rw [filterMap_concat_none (Part.exportTo?_of_ne heq record), ih]
      congr 1
      rw [eq_iff_iff]
      omega

/-- What is picked from the parts of a reading. -/
theorem filterMap_partsOf {β : Type} (pick : Part → Option β) (request : Request)
    {record : SensorRecord} {device : String} (h : record.entityId? = some device) :
    (partsOf attempts outlets request (.accepted record)).filterMap pick
      = [.seeDevice device request.receivedAt,
        .update .device ⟨EntityKind.device, device, record, some (Pipeline.originOf request),
          attempts⟩,
        .update .value ⟨EntityKind.value, device, record, some (Pipeline.originOf request),
          attempts⟩].filterMap pick
        ++ (exportsOf outlets record).filterMap pick
        ++ (gatewayParts attempts request).filterMap pick := by
  rw [partsOf, h]
  dsimp only
  rw [List.filterMap_append, List.filterMap_append]

theorem call_device (request : Request) {record : SensorRecord} {device : String}
    (h : record.entityId? = some device) :
    (partsOf attempts outlets request (.accepted record)).filterMap (Part.call? .device)
      = [⟨EntityKind.device, device, record, some (Pipeline.originOf request), attempts⟩] := by
  rw [filterMap_partsOf _ _ h, filterMap_exportsOf _ fun _ => rfl, gatewayParts]
  cases request.hints.id <;> rfl

theorem call_value (request : Request) {record : SensorRecord} {device : String}
    (h : record.entityId? = some device) :
    (partsOf attempts outlets request (.accepted record)).filterMap (Part.call? .value)
      = [⟨EntityKind.value, device, record, some (Pipeline.originOf request), attempts⟩] := by
  rw [filterMap_partsOf _ _ h, filterMap_exportsOf _ fun _ => rfl, gatewayParts]
  cases request.hints.id <;> rfl

theorem call_gateway (request : Request) {record : SensorRecord} {device : String}
    (h : record.entityId? = some device) :
    (partsOf attempts outlets request (.accepted record)).filterMap (Part.call? .gateway)
      = request.hints.id.toList.map fun gateway => ⟨EntityKind.gateway, gateway,
          Pipeline.statusOf request, some (Origin.ofTransport request.transport), attempts⟩ := by
  rw [filterMap_partsOf _ _ h, filterMap_exportsOf _ fun _ => rfl, gatewayParts]
  cases request.hints.id <;> rfl

theorem exportTo?_accepted (request : Request) {record : SensorRecord} {device : String}
    (h : record.entityId? = some device) {number : Nat} (hnumber : number < outlets) :
    (partsOf attempts outlets request (.accepted record)).filterMap (Part.exportTo? number)
      = [record] := by
  rw [filterMap_partsOf _ _ h, exportTo?_exportsOf, if_pos hnumber, gatewayParts]
  cases request.hints.id <;> rfl

theorem command?_accepted (request : Request) {record : SensorRecord} {device : String}
    (h : record.entityId? = some device) :
    (partsOf attempts outlets request (.accepted record)).filterMap Part.command? = [] := by
  rw [filterMap_partsOf _ _ h, filterMap_exportsOf _ fun _ => rfl, gatewayParts]
  cases request.hints.id <;> rfl

theorem readings_accepted (request : Request) (record : SensorRecord) :
    readings [(request, .accepted record)] = [(request, record)] := rfl

theorem readingsOf_accepted {request : Request} {record : SensorRecord} {device : String}
    (h : record.entityId? = some device) (id : String) :
    readingsOf id [(request, .accepted record)]
      = if device = id then [(request, record)] else [] := by
  rw [readingsOf, readings_accepted]
  by_cases heq : device = id
  · rw [if_pos heq, List.filter_cons_of_pos (by simp [h, heq])]
    rfl
  · rw [if_neg heq, List.filter_cons_of_neg (by simp [h, heq])]
    rfl

theorem heardBy_accepted (id : String) (request : Request) (record : SensorRecord) :
    heardBy id [(request, .accepted record)]
      = if request.hints.id = some id then [request] else [] := by
  rw [heardBy, readings_accepted, List.map_singleton, List.filter_singleton]
  simp

/-- The calls of a kind for a device are those of its readings, if every reading makes one. -/
theorem callsOf_readings {kind : EntityKind SensorRecord} {pick : Part → Option (Call SensorRecord)}
    (hpick : ∀ (request : Request) {record : SensorRecord} {device : String},
      record.entityId? = some device →
      (partsOf attempts outlets request (.accepted record)).filterMap pick
        = [⟨kind, device, record, some (Pipeline.originOf request), attempts⟩])
    (hcommand : ∀ c, pick (.command c) = none) (h : Genuine log) (id : String) :
    callsOf id ((ledgerOf attempts outlets log).filterMap pick)
      = (readingsOf id log).map fun (request, record) =>
        ⟨kind, id, record, some (Pipeline.originOf request), attempts⟩ := by
  refine pick_ledgerOf (fun ledger => callsOf id (ledger.filterMap pick))
    (fun log => (readingsOf id log).map fun (request, record) =>
      ⟨kind, id, record, some (Pipeline.originOf request), attempts⟩) rfl ?_ ?_ ?_ h
  · intro l l'
    rw [List.filterMap_append, callsOf_append]
  · intro log log'
    rw [readingsOf_append, List.map_append]
  · intro request outcome hgenuine
    cases outcome with
    | accepted record =>
      obtain ⟨device, hdevice⟩ := hgenuine.exists_device
      dsimp only
      rw [hpick request hdevice, callsOf_singleton, readingsOf_accepted hdevice]
      -- The call is for the device of the reading, so it counts when the reading does.
      split
      · rename_i heq
        subst heq
        rfl
      · rfl
    | command c =>
      dsimp only
      rw [partsOf, List.filterMap_cons_none (hcommand c)]
      rfl
    | _ => rfl

/-- The calls for a gateway are those of the requests that it heard. -/
theorem callsOf_gateway (h : Genuine log) (id : String) :
    callsOf id ((ledgerOf attempts outlets log).filterMap (Part.call? .gateway))
      = (heardBy id log).map fun request => ⟨EntityKind.gateway, id, Pipeline.statusOf request,
          some (Origin.ofTransport request.transport), attempts⟩ := by
  refine pick_ledgerOf (fun ledger => callsOf id (ledger.filterMap (Part.call? .gateway)))
    (fun log => (heardBy id log).map fun request => ⟨EntityKind.gateway, id,
      Pipeline.statusOf request, some (Origin.ofTransport request.transport), attempts⟩)
    rfl ?_ ?_ ?_ h
  · intro l l'
    rw [List.filterMap_append, callsOf_append]
  · intro log log'
    rw [heardBy_append, List.map_append]
  · intro request outcome hgenuine
    cases outcome with
    | accepted record =>
      obtain ⟨device, hdevice⟩ := hgenuine.exists_device
      rw [call_gateway request hdevice, heardBy_accepted]
      -- Without a gateway there is neither a call nor a request that counts.
      cases hgateway : request.hints.id with
      | none => rfl
      | some gateway =>
        rw [Option.toList_some, List.map_singleton, callsOf_singleton]
        simp only [Option.some.injEq]
        split
        · rename_i heq
          subst heq
          rfl
        · rfl
    | _ => rfl

theorem exportTo?_ledgerOf (h : Genuine log) {number : Nat} (hnumber : number < outlets) :
    (ledgerOf attempts outlets log).filterMap (Part.exportTo? number)
      = (readings log).map Prod.snd := by
  refine pick_ledgerOf (fun ledger => ledger.filterMap (Part.exportTo? number))
    (fun log => (readings log).map Prod.snd) rfl ?_ ?_ ?_ h
  · exact fun _ _ => List.filterMap_append
  · intro log log'
    rw [readings_append, List.map_append]
  · intro request outcome hgenuine
    cases outcome with
    | accepted record =>
      obtain ⟨device, hdevice⟩ := hgenuine.exists_device
      exact exportTo?_accepted request hdevice hnumber
    | _ => rfl

theorem command?_ledgerOf (h : Genuine log) :
    (ledgerOf attempts outlets log).filterMap Part.command? = commandsOf log := by
  refine pick_ledgerOf (fun ledger => ledger.filterMap Part.command?) commandsOf rfl ?_
    commandsOf_append ?_ h
  · exact fun _ _ => List.filterMap_append
  · intro request outcome hgenuine
    cases outcome with
    | accepted record =>
      obtain ⟨device, hdevice⟩ := hgenuine.exists_device
      exact command?_accepted request hdevice
    | _ => rfl

end Ledgers

/-! ## Numbers of readings -/

section Numbers

variable {request : Request} {record : SensorRecord}

/-- The numbers of the hints of a request are among those of its readings. -/
theorem survive_hints (h : Normalizer.IsReading request record) (hsurvive : Survive record) :
    ∀ n ∈ [request.hints.lat, request.hints.lon, request.hints.snr].reduceOption, n.Survives := by
  intro n hn
  have hgateway := h.2
  rw [Intake.Hints.reception?] at hgateway
  -- Hints without numbers have none to lose, and all others are part of the record.
  split at hgateway
  · rename_i hempty
    rw [Intake.Hints.isEmpty, beq_iff_eq] at hempty
    rw [hempty] at hn
    cases hn
  · apply hsurvive n
    rw [SensorRecord.mem_numbers_iff]
    refine ⟨Json.Lossless.optionNumbers record.gateway, by simp [SensorRecord.groupNumbers], ?_⟩
    rw [hgateway]
    exact hn

theorem survive_originOf (h : Normalizer.IsReading request record) (hsurvive : Survive record) :
    Survive (Pipeline.originOf request) := by
  intro n hn
  apply survive_hints h hsurvive n
  change n ∈ [request.hints.lat, request.hints.lon].reduceOption at hn
  rw [List.reduceOption_mem_iff] at hn ⊢
  simp only [List.mem_cons, List.not_mem_nil, or_false] at hn ⊢
  exact hn.elim .inl fun hlon => .inr (.inl hlon)

theorem survive_statusOf (h : Normalizer.IsReading request record) (hsurvive : Survive record) :
    Survive (Pipeline.statusOf request) :=
  survive_hints h hsurvive

theorem survive_withoutReception (hsurvive : Survive record) :
    Survive (Store.withoutReception record) := by
  intro n hn
  apply hsurvive n
  obtain ⟨part, hpart, hn⟩ := SensorRecord.mem_numbers_iff.mp hn
  have hne : part ≠ [] := List.ne_nil_of_mem hn
  have hempty {α : Type} [Json.Record α] [Json.Lossless α] :
      Json.Lossless.optionNumbers (none : Option α) = [] := rfl
  -- Every group of the prepared record is one of the record or is absent.
  refine SensorRecord.mem_numbers_iff.mpr ⟨part, ?_, hn⟩
  simp only [Store.withoutReception, SensorRecord.groupNumbers, hempty, List.mem_cons,
    List.not_mem_nil, or_false, hne] at hpart ⊢
  rcases hpart with h | h | h | h | h | h <;> simp only [h, true_or, or_true]

/-- The updates of readings whose numbers survive can be stored. -/
theorem sound_partsOf {attempts : Nat} (hattempts : 0 < attempts) (outlets : Nat)
    (h : Normalizer.IsReading request record) (hsurvive : Survive record) :
    Sound (partsOf attempts outlets request (.accepted record)) := by
  obtain ⟨device, hdevice⟩ := Option.isSome_iff_exists.mp h.1
  intro shelf call hmem
  -- The calls of the parts are known by their kinds.
  have hcall : call ∈ (partsOf attempts outlets request (.accepted record)).filterMap
      (Part.call? shelf) := List.mem_filterMap.mpr ⟨_, hmem, Part.call?_self shelf call⟩
  cases shelf with
  | device =>
    rw [call_device request hdevice, List.mem_singleton] at hcall
    subst hcall
    exact ⟨rfl, hattempts, hsurvive, survive_originOf h hsurvive⟩
  | value =>
    rw [call_value request hdevice, List.mem_singleton] at hcall
    subst hcall
    exact ⟨rfl, hattempts, survive_withoutReception hsurvive, survive_originOf h hsurvive⟩
  | gateway =>
    rw [call_gateway request hdevice, List.mem_map] at hcall
    obtain ⟨gateway, -, rfl⟩ := hcall
    exact ⟨rfl, hattempts, survive_statusOf h hsurvive, fun n hn => absurd hn List.not_mem_nil⟩

end Numbers

/-- The updates of a log can be stored when the numbers of its readings survive. -/
theorem sound_ledgerOf {attempts : Nat} (hattempts : 0 < attempts) (outlets : Nat)
    {log : List (Request × Outcome)} (h : Genuine log)
    (hsurvive : ∀ reading ∈ readings log, Survive reading.2) :
    Sound (ledgerOf attempts outlets log) := by
  intro shelf call hcall
  obtain ⟨⟨request, outcome⟩, hmem, hcall⟩ := List.mem_flatMap.mp hcall
  cases outcome with
  | accepted record =>
    have hreading : (request, record) ∈ readings log := List.mem_filterMap.mpr ⟨_, hmem, rfl⟩
    exact sound_partsOf hattempts outlets (h request record hmem) (hsurvive _ hreading) shelf call
      hcall
  | command c =>
    rcases List.mem_cons.mp hcall with heq | hcall
    · cases heq
    · cases hcall
  | _ => cases hcall

end FieldTelemetry.Pipeline
