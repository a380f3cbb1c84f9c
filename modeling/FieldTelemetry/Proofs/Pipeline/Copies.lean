import FieldTelemetry.Pipeline.Dispatch
import FieldTelemetry.Proofs.Pipeline.StampRoundTrip
import FieldTelemetry.Proofs.Pipeline.Traffic
import FieldTelemetry.Proofs.Wire.Relays

/-!
# Copies and the messages that they stand for

A message that has the reading of an earlier one which was no copy is a copy itself within the
window, whatever relays and requests it came over, and changes nothing but the counts. The earlier
message need not have been accepted. It is remembered before its sender and its stamp are looked at,
so that copies of a message which was rejected for them are copies, also when its stamp has been set
meanwhile.

## Main results

* `copy_is_duplicate`: messages with the reading of an earlier message
* `duplicate_has_first`: the earlier message of a copy
* `duplicate_of_rejected`: a copy whose earlier message was rejected
-/

namespace FieldTelemetry.Pipeline.Normalizer

open Intake (Request)
open Stamp (StampStore)
open Time (Instant Span)
open Wire (Message)

/-! ## A message before and after its stamp is set -/

/-- The record of the message that sets a stamp. -/
def datedRecord : SensorRecord :=
  recordOf plainRequest (datedMessage none).checksum (datedMessage none).withoutRelays.withoutStamp
    (dateTime? ((datedMessage none) .captureDate) ((datedMessage none) .captureTime)) false

/-- A message that refers to a stamp before it is set. -/
def strandedFirst : Processed :=
  ⟨plainRequest, laterMessage.encode, .epoch,
    .rejected .unstampable (Stamp.StampError.unstampable "100" 5).message⟩

/-- The message that sets the stamp. -/
def settingFirst : Processed :=
  ⟨plainRequest, (datedMessage none).encode, .epoch, .accepted datedRecord⟩

/-- The message that refers to the stamp, once more. -/
def strandedCopy : Processed :=
  ⟨plainRequest, laterMessage.encode, .epoch, .duplicate laterMessage.checksum⟩

theorem exists_run_stranded :
    ∃ state, Run freshState [strandedFirst, settingFirst, strandedCopy] state := by
  have houtcomes : (processTimed plainRequest [(laterMessage.encode, .epoch),
      ((datedMessage none).encode, .epoch), (laterMessage.encode, .epoch)] freshState).toOption.map
        Prod.fst
      = some [strandedFirst.outcome, settingFirst.outcome, strandedCopy.outcome] := by
    decide +kernel
  obtain ⟨⟨outcomes, state⟩, hresult, rfl⟩ := Option.map_eq_some_iff.mp houtcomes
  exact ⟨state, (Run.start.processTimed (eq_ok_of_toOption hresult)).2⟩

theorem decode_datedMessage : Message.decode (datedMessage none).encode = .ok (datedMessage none) :=
  eq_ok_of_toOption (by decide +kernel)

/-- The message that sets the stamp, over a relay. -/
def relayedMessage : Message := (datedMessage none).set .relay1 (77 : UInt32)

/-- A request of another gateway. -/
def gatewayRequest : Request := ⟨[], "gateway-mqtt", .epoch, { id := some "gw" }, 3⟩

/-- Half a minute later. -/
def halfMinute : Instant := (Instant.ofMillis? 30000).getD .epoch

/-! ## Copies -/

section Copies

variable {σ : Type} [StampStore σ] {start state : State σ}

/-- A message that has the reading of an earlier message of a run is a copy if the earlier one was
none, is less than the window ago, and fewer messages than are remembered were no copies in between.
It is counted and changes nothing else, and no work comes from it. -/
theorem copy_is_duplicate {before between : List Processed} {first : Processed} {m n : Message}
    {octets : Octets} {now : Instant} (hrun : Run start (before ++ first :: between) state)
    (hfirst : Message.decode first.octets = .ok m)
    (hfresh : ∀ checksum, first.outcome ≠ .duplicate checksum)
    (hsecond : Message.decode octets = .ok n) (hsame : m.SameReading n)
    (hwindow : now.since first.now < start.normalizer.dedup.window)
    (hcount : (sightings between).length < Intake.dedupCapacity) (request : Request) :
    ∃ tally, processMessage request octets now state
        = .ok (.duplicate n.checksum, { state with tally })
      ∧ ∀ {β : Type} (p : Pipeline β σ) (later : Instant),
        p.dispatch request (.duplicate n.checksum) later = p := by
  have hsighting : first.sighting? = some ⟨m.checksum, first.now⟩ :=
    Processed.sighting?_eq_some_iff.mpr ⟨m, hfirst, hfresh, rfl⟩
  have hsuppresses : state.normalizer.dedup.Suppresses n.checksum now :=
    hrun.suppresses hsighting hcount ⟨hsame.checksum_eq, hwindow⟩
  exact ⟨_, processMessage_of_copy hsecond hsuppresses, fun _ _ => rfl⟩

/-- The message that sets a stamp is a copy when it comes once more over a relay, in a request of
another gateway. -/
theorem relayed_copy_is_duplicate :
    ∃ state : State Store.Folder, Run freshState [strandedFirst, settingFirst, strandedCopy] state
      ∧ ∃ tally, processMessage gatewayRequest relayedMessage.encode halfMinute state
        = .ok (.duplicate relayedMessage.checksum, { state with tally }) := by
  obtain ⟨state, hrun⟩ := exists_run_stranded
  have hdecode : Message.decode relayedMessage.encode = .ok relayedMessage :=
    eq_ok_of_toOption (by decide +kernel)
  have hsame : (datedMessage none).SameReading relayedMessage :=
    (Message.SameReading.set_relay (by decide) _ _).symm
  have hcount : (Normalizer.sightings [strandedCopy]).length < Intake.dedupCapacity :=
    (List.length_filterMap_le _ _).trans_lt (by decide)
  have hwindow : halfMinute.since settingFirst.now < Intake.dedupWindow := by decide +kernel
  have hrun' : Run freshState ([strandedFirst] ++ settingFirst :: [strandedCopy]) state := hrun
  obtain ⟨tally, hprocess, -⟩ := copy_is_duplicate hrun' decode_datedMessage (fun _ h => by cases h)
    hdecode hsame hwindow hcount gatewayRequest
  exact ⟨state, hrun, tally, hprocess⟩

/-- A copy stands for an earlier message of the run with its checksum, less than the window ago.
That message was accepted, or was a command, or had no sender, or referred to a stamp when none of
its device could be used. -/
theorem duplicate_has_first {window : Span} {tally : Tally} {files : σ} {log : List Processed}
    {copy : Processed} {checksum : UInt32}
    (hrun : Run ⟨.new window, tally, files⟩ (log ++ [copy]) state)
    (hcopy : copy.outcome = .duplicate checksum) :
    ∃ before first after m, log = before ++ first :: after
      ∧ Message.decode first.octets = .ok m ∧ m.checksum = checksum
      ∧ copy.now.since first.now < window ∧ FirstOutcome m first.outcome := by
  obtain ⟨between, next, hlog, hprocess, -⟩ := hrun.split
  rw [hcopy] at hprocess
  obtain ⟨_, -, habsurd, -⟩ | ⟨n, -, hsuppresses, houtcome, -⟩ | ⟨n, -, -, hfirst, -⟩ :=
    processMessage_eq_ok hprocess
  · cases habsurd
  · cases houtcome
    -- The sighting that suppresses the copy is the one of some message.
    obtain ⟨before, first, after, sighting, rfl, hsighting, ⟨hchecksum, hwindow⟩, -⟩ :=
      (hlog.suppresses_iff rfl).mp hsuppresses
    obtain ⟨m, hdecode, hfresh, rfl⟩ := Processed.sighting?_eq_some_iff.mp hsighting
    refine ⟨before, first, after, m, rfl, hdecode, hchecksum, hwindow, ?_⟩
    -- That message was no copy when it was processed.
    obtain ⟨_, _, -, hprocessed, -⟩ := hlog.split
    obtain ⟨_, herror, -⟩ | ⟨_, -, -, houtcome, -⟩ | ⟨m', hdecode', -, hfirst, -⟩ :=
      processMessage_eq_ok hprocessed
    · rw [hdecode] at herror
      cases herror
    · exact absurd houtcome (hfresh _)
    · rw [hdecode] at hdecode'
      cases hdecode'
      exact hfirst
  · exact absurd rfl (hfirst.not_duplicate checksum)

end Copies

theorem stranded_has_first :
    ∃ state : State Store.Folder,
      Run freshState ([strandedFirst, settingFirst] ++ [strandedCopy]) state
        ∧ ∃ before first after m, [strandedFirst, settingFirst] = before ++ first :: after
          ∧ Message.decode first.octets = .ok m ∧ m.checksum = laterMessage.checksum
          ∧ strandedCopy.now.since first.now < Intake.dedupWindow
          ∧ FirstOutcome m first.outcome := by
  obtain ⟨state, hrun⟩ := exists_run_stranded
  have hrun' : Run ⟨.new Intake.dedupWindow, .zero, .empty⟩
      ([strandedFirst, settingFirst] ++ [strandedCopy]) state := hrun
  exact ⟨state, hrun, duplicate_has_first hrun' rfl⟩

/-- A message that refers to a stamp is a copy after the stamp has been set, though no message with
its checksum was accepted or was a command. -/
theorem duplicate_of_rejected :
    ∃ state : State Store.Folder,
      Run freshState ([strandedFirst, settingFirst] ++ [strandedCopy]) state
        ∧ strandedCopy.outcome = .duplicate laterMessage.checksum
        ∧ ¬ ∃ first ∈ [strandedFirst, settingFirst], ∃ m, Message.decode first.octets = .ok m
          ∧ m.checksum = laterMessage.checksum
          ∧ strandedCopy.now.since first.now < Intake.dedupWindow
          ∧ ((∃ record, first.outcome = .accepted record)
            ∨ ∃ command, first.outcome = .command command) := by
  obtain ⟨state, hrun⟩ := exists_run_stranded
  refine ⟨state, hrun, rfl, ?_⟩
  rintro ⟨first, hmem, m, hdecode, hchecksum, -, houtcome⟩
  rcases List.mem_pair.mp hmem with rfl | rfl
  · -- The same message was rejected.
    obtain ⟨_, habsurd⟩ | ⟨_, habsurd⟩ := houtcome
    · cases habsurd
    · cases habsurd
  · -- The message that sets the stamp has another checksum.
    rw [settingFirst, decode_datedMessage] at hdecode
    cases hdecode
    revert hchecksum
    decide +kernel

end FieldTelemetry.Pipeline.Normalizer
