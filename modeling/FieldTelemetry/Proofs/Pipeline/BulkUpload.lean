import FieldTelemetry.Proofs.Pipeline.StampRoundTrip
import FieldTelemetry.Proofs.Pipeline.Traffic
import FieldTelemetry.Proofs.Wire.Bulk

/-!
# Bulk payloads and their parts

What becomes of a message depends on the remembered messages, on the stamps and on the stamp files,
and not on what has been counted. So a bulk payload means the same as its parts sent one by one,
each as a request of its own, and a stamp that one part has set is there for every later part.

## Main definitions

* `State.Agrees`: states that have everything in common but their counts
* `SameAnswer`: the same answer, in states that agree
* `processEach`: the parts of a payload as requests of their own
* `RefersBack`: a part that refers to a stamp which an earlier part has set
* `RefersElsewhere`: a part that refers to another stamp

## Main results

* `processMessage_agrees`: messages are answered alike in states that agree
* `processMessages_sameAnswer`: the parts of a payload together and one by one
* `process_bulk`: a bulk payload and its parts
-/

namespace FieldTelemetry.Pipeline

open Intake (Request)
open Json (reread)
open Stamp (LawfulStampStore PlaceSurvives StampFile StampStore)
open Time (Instant)
open Wire (Message)

/-! ## States that agree -/

/-- Related counts stay related when both count one more of a thing. -/
def Tally.Lockstep (R : Tally → Tally → Prop) : Prop :=
  ∀ a b counter, R a b → R (a.bump counter) (b.bump counter)

namespace Normalizer

/-- Two states have everything in common but their counts, which are related. -/
structure State.Agrees {σ : Type} (R : Tally → Tally → Prop) (s t : State σ) : Prop where
  /-- The same normalizer. -/
  normalizer : s.normalizer = t.normalizer
  /-- The same files. -/
  files : s.files = t.files
  /-- Related counts. -/
  tally : R s.tally t.tally

/-- Two runs break down alike, or give the same answer and end in states that agree. -/
inductive SameAnswer {σ β : Type} (R : Tally → Tally → Prop) :
    Except Breakdown (β × State σ) → Except Breakdown (β × State σ) → Prop
  /-- The same answer, and states that agree. -/
  | ok {answer : β} {s t : State σ} (h : s.Agrees R t) :
    SameAnswer R (.ok (answer, s)) (.ok (answer, t))
  /-- The same breakdown. -/
  | error {breakdown : Breakdown} : SameAnswer R (.error breakdown) (.error breakdown)

theorem SameAnswer.exists_ok {σ β : Type} {R : Tally → Tally → Prop}
    {a b : Except Breakdown (β × State σ)} (h : SameAnswer R a b) {answer : β} {t : State σ}
    (hb : b = .ok (answer, t)) : ∃ s, a = .ok (answer, s) ∧ s.Agrees R t := by
  cases h with
  | ok hagrees =>
    cases hb
    exact ⟨_, rfl, hagrees⟩
  | error => cases hb

/-- What is done alike after the same answer has the same answer. -/
theorem SameAnswer.bind {σ β γ : Type} {R Q : Tally → Tally → Prop}
    {a b : Except Breakdown (β × State σ)} {f g : β × State σ → Except Breakdown (γ × State σ)}
    (h : SameAnswer R a b) (hnext : ∀ answer s t, s.Agrees R t →
      SameAnswer Q (f (answer, s)) (g (answer, t))) : SameAnswer Q (a >>= f) (b >>= g) := by
  cases h with
  | ok hagrees => exact hnext _ _ _ hagrees
  | error => exact .error

section Messages

variable {σ : Type} [StampStore σ] {R : Tally → Tally → Prop} {s t : State σ}

theorem processReading_agrees (hR : Tally.Lockstep R) (h : s.Agrees R t) (request : Request)
    (checksum : UInt32) (m : Message) (device : String) (now : Instant) :
    SameAnswer R (processReading request checksum m device now s)
      (processReading request checksum m device now t) := by
  obtain ⟨normalizer, tally, files⟩ := s
  obtain ⟨_, tally', _⟩ := t
  obtain ⟨rfl, rfl, htally⟩ := h
  rw [processReading, processReading]
  dsimp only at htally ⊢
  generalize normalizer.stamps.process device m now files = processed
  obtain ⟨result, stamps, files⟩ := processed
  cases result with
  | error error => exact .ok ⟨rfl, rfl, hR _ _ _ htally⟩
  | ok answer =>
    obtain ⟨stampOutcome, m'⟩ := answer
    dsimp only
    cases capturedAt? m' with
    | error breakdown => exact .error
    | ok capturedAt =>
      refine .ok ⟨rfl, rfl, hR _ _ _ ?_⟩
      -- Whether the reading counts as degraded does not depend on the counts.
      cases isDegraded stampOutcome with
      | true => exact hR _ _ _ htally
      | false => exact htally

theorem processMessage_agrees (hR : Tally.Lockstep R) (h : s.Agrees R t) (request : Request)
    (octets : Octets) (now : Instant) :
    SameAnswer R (processMessage request octets now s) (processMessage request octets now t) := by
  obtain ⟨normalizer, tally, files⟩ := s
  obtain ⟨_, tally', _⟩ := t
  obtain ⟨rfl, rfl, htally⟩ := h
  dsimp only at htally
  have hcounted := hR _ _ .messages htally
  cases hdecode : Message.decode octets with
  | error error =>
    rw [processMessage_of_error hdecode, processMessage_of_error hdecode]
    exact .ok ⟨rfl, rfl, hR _ _ _ hcounted⟩
  | ok m =>
    by_cases hcopy : normalizer.dedup.Suppresses m.checksum now
    · rw [processMessage_of_copy hdecode hcopy, processMessage_of_copy hdecode hcopy]
      exact .ok ⟨rfl, rfl, hR _ _ _ hcounted⟩
    · rw [processMessage_of_fresh hdecode hcopy, processMessage_of_fresh hdecode hcopy]
      by_cases hsensor : m.isSensor = true
      · cases hdevice : m.entityId? with
        | none =>
          rw [processFresh_of_nobody hsensor hdevice, processFresh_of_nobody hsensor hdevice]
          exact .ok ⟨rfl, rfl, hR _ _ _ hcounted⟩
        | some device =>
          rw [processFresh_of_device hsensor hdevice, processFresh_of_device hsensor hdevice]
          apply processReading_agrees hR
          exact ⟨rfl, rfl, hcounted⟩
      · rw [processFresh_of_command hsensor, processFresh_of_command hsensor]
        exact .ok ⟨rfl, rfl, hR _ _ _ hcounted⟩

end Messages

/-! ## Parts one by one -/

/-- The parts of a payload as requests of their own, one after the other. -/
def processEach {σ : Type} [StampStore σ] (request : Request) (now : Instant) :
    List Octets → State σ → Except Breakdown (List Outcome × State σ)
  | [], state => .ok ([], state)
  | part :: parts, state => do
    let (outcomes, state) ← process { request with payload := part } now state
    let (later, state) ← processEach request now parts state
    return (outcomes ++ later, state)

/-- The counts of a bulk payload and of its parts, of which so many have been requests of their own:
they differ in the requests only. -/
def Tally.OneRequest (parts : Nat) (a b : Tally) : Prop :=
  a.count .requests + parts = b.count .requests + 1
    ∧ ∀ counter ≠ .requests, a.count counter = b.count counter

theorem Tally.lockstep_oneRequest (parts : Nat) : Tally.Lockstep (Tally.OneRequest parts) := by
  rintro a b counter ⟨hrequests, hothers⟩
  refine ⟨?_, ?_⟩
  · simp only [Tally.count_bump]
    split <;> omega
  · intro other hother
    simp only [Tally.count_bump, hothers other hother]

theorem Tally.oneRequest_bump {parts : Nat} {a b : Tally} (h : Tally.OneRequest parts a b) :
    Tally.OneRequest (parts + 1) a (b.bump .requests) := by
  obtain ⟨hrequests, hothers⟩ := h
  refine ⟨?_, ?_⟩
  · simp only [Tally.count_bump, if_true]
    omega
  · intro other hother
    simp only [Tally.count_bump, if_neg hother, hothers other hother]

section Parts

variable {σ : Type} [StampStore σ] {request : Request} {now : Instant} {s t : State σ}

/-- A part that is a payload of its own is a request with one message. -/
theorem process_single {part : Octets} (hpart : part ≠ [] ∧ part.head? ≠ some 0) :
    process { request with payload := part } now s
      = (fun result => ([result.1], result.2)) <$>
          processMessage request part now { s with tally := s.tally.bump .requests } := by
  obtain ⟨hne, hfirst⟩ := hpart
  cases part with
  | nil => exact absurd rfl hne
  | cons first rest =>
    have hsplit : Wire.split (first :: rest) = .ok [first :: rest] := by
      rw [Wire.split, if_neg]
      rintro rfl
      exact hfirst rfl
    rw [process]
    dsimp only
    rw [hsplit]
    -- Only the payload is another one, and a message is not looked up in it again.
    change processMessages request now [first :: rest] _ = _
    rw [processMessages]
    cases processMessage request (first :: rest) now { s with tally := s.tally.bump .requests } with
    | error breakdown => rfl
    | ok result => rfl

/-- The messages of a request do not depend on its payload once they are taken out of it. -/
theorem processMessages_withPayload (payload : Octets) (parts : List Octets) (state : State σ) :
    processMessages { request with payload } now parts state
      = processMessages request now parts state := by
  induction parts generalizing state with
  | nil => rfl
  | cons part parts ih =>
    rw [processMessages, processMessages]
    simp only [ih]
    rfl

theorem processMessages_sameAnswer {parts : List Octets} {done : Nat}
    (hparts : ∀ part ∈ parts, part ≠ [] ∧ part.head? ≠ some 0)
    (h : State.Agrees (Tally.OneRequest done) s t) :
    SameAnswer (Tally.OneRequest (done + parts.length))
      (processMessages request now parts s) (processEach request now parts t) := by
  induction parts generalizing s t done with
  | nil => exact .ok h
  | cons part parts ih =>
    obtain ⟨hpart, hrest⟩ := List.forall_mem_cons.mp hparts
    have hcounted : State.Agrees (Tally.OneRequest (done + 1)) s
        { t with tally := t.tally.bump .requests } :=
      ⟨h.normalizer, h.files, Tally.oneRequest_bump h.tally⟩
    have hlength : done + 1 + parts.length = done + (part :: parts).length := by
      rw [List.length_cons]
      omega
    rw [processMessages, processEach, process_single hpart, bind_map_left, ← hlength]
    refine (processMessage_agrees (Tally.lockstep_oneRequest _) hcounted request part now).bind ?_
    intro outcome s' t' hagrees
    refine (ih hrest hagrees).bind ?_
    intro outcomes s'' t'' hagrees
    exact .ok hagrees

/-! ## A stamp set by an earlier part -/

theorem processEach_append_eq_ok (front : List Octets) {back : List Octets}
    {outcomes : List Outcome} (h : processEach request now (front ++ back) s = .ok (outcomes, t)) :
    ∃ earlier between later, processEach request now front s = .ok (earlier, between)
      ∧ processEach request now back between = .ok (later, t) ∧ outcomes = earlier ++ later := by
  induction front generalizing s outcomes with
  | nil => exact ⟨[], s, outcomes, rfl, h, rfl⟩
  | cons part front ih =>
    rw [List.cons_append, processEach] at h
    rw [processEach]
    cases hfirst : process { request with payload := part } now s with
    | error breakdown =>
      rw [hfirst] at h
      cases h
    | ok first =>
      rw [hfirst] at h
      simp only [bind, Except.bind] at h ⊢
      cases hrest : processEach request now (front ++ back) first.2 with
      | error breakdown =>
        rw [hrest] at h
        cases h
      | ok rest =>
        rw [hrest] at h
        cases h
        obtain ⟨earlier, between, later, hfront, hback, heq⟩ := ih hrest
        refine ⟨first.1 ++ earlier, between, later, ?_, hback, ?_⟩
        · rw [hfront]
          rfl
        · rw [heq, List.append_assoc]

/-- The one outcome of a part is that of its message. -/
theorem processEach_singleton_eq_ok {part : Octets} (hpart : part ≠ [] ∧ part.head? ≠ some 0)
    {outcomes : List Outcome} (h : processEach request now [part] s = .ok (outcomes, t)) :
    ∃ outcome, outcomes = [outcome] ∧ processMessage request part now
      { s with tally := s.tally.bump .requests } = .ok (outcome, t) := by
  rw [processEach, process_single hpart] at h
  cases hprocess : processMessage request part now { s with tally := s.tally.bump .requests } with
  | error breakdown =>
    rw [hprocess] at h
    cases h
  | ok result =>
    rw [hprocess] at h
    cases h
    exact ⟨_, rfl, rfl⟩

theorem length_processEach {parts : List Octets}
    (hparts : ∀ part ∈ parts, part ≠ [] ∧ part.head? ≠ some 0) {outcomes : List Outcome}
    (h : processEach request now parts s = .ok (outcomes, t)) :
    outcomes.length = parts.length := by
  induction parts generalizing s outcomes with
  | nil =>
    cases h
    rfl
  | cons part parts ih =>
    obtain ⟨hpart, hrest⟩ := List.forall_mem_cons.mp hparts
    obtain ⟨first, between, later, hfirst, hlater, rfl⟩ := processEach_append_eq_ok [part] h
    obtain ⟨outcome, rfl, -⟩ := processEach_singleton_eq_ok hpart hfirst
    rw [List.length_append, ih hrest hlater, List.length_singleton, List.length_cons, Nat.add_comm]

/-- No message of a device sets a stamp. -/
def SetsNoStamp (device : String) (octets : Octets) : Prop :=
  ∀ m, Message.decode octets = .ok m → m.entityId? = some device →
    ∀ version stamp, m.stampUse ≠ .set version stamp

/-- Parts that set no stamp of a device are quiet traffic for it. -/
theorem quiet_processEach {device : String} {parts : List Octets}
    (hparts : ∀ part ∈ parts, part ≠ [] ∧ part.head? ≠ some 0)
    (hsets : ∀ part ∈ parts, SetsNoStamp device part) {outcomes : List Outcome}
    (h : processEach request now parts s = .ok (outcomes, t)) : Quiet device s t := by
  induction parts generalizing s outcomes with
  | nil =>
    cases h
    exact .refl _
  | cons part parts ih =>
    obtain ⟨hpart, hrest⟩ := List.forall_mem_cons.mp hparts
    obtain ⟨hnone, hnones⟩ := List.forall_mem_cons.mp hsets
    obtain ⟨first, between, later, hfirst, hlater, -⟩ := processEach_append_eq_ok [part] h
    obtain ⟨outcome, -, hprocess⟩ := processEach_singleton_eq_ok hpart hfirst
    have hquiet := ih hrest hnones hlater
    exact .count _ (.message hprocess (fun m hdecode hdevice _ => hnone m hdecode hdevice) hquiet)

/-- A message of a device refers to another stamp. -/
def RefersElsewhere (device : String) (stamp : UInt32) (octets : Octets) : Prop :=
  ∃ m other, Message.decode octets = .ok m ∧ m.entityId? = some device
    ∧ m.stampUse = .apply other ∧ other ≠ stamp

section Memory

variable [LawfulStampStore σ] {device : String} {file : StampFile}

/-- A stamp stays in memory, or the message was one of the device that refers to another stamp and
memory has what the file holds. -/
theorem Remembers.processMessage {octets : Octets} {outcome : Outcome}
    (h : Remembers device file s) (hsets : SetsNoStamp device octets)
    (hprocess : processMessage request octets now s = .ok (outcome, t)) :
    Remembers device file t
      ∨ Holds device (reread file) t ∧ RefersElsewhere device file.stamp octets := by
  rcases processMessage_cases hprocess with ⟨hstamps, hfiles, -⟩
    | ⟨m, other, hdecode, hother, -, hstamps, hfiles, -⟩
  · left
    rw [Remembers, hstamps, hfiles]
    exact h
  · have hnone : other = device → ∀ version stamp,
        m.withoutRelays.stampUse ≠ .set version stamp := by
      rintro rfl
      exact hsets m hdecode hother
    obtain ⟨hfiled, hkept | ⟨htaken, rfl, stamp, huse, hne⟩⟩ := remembers_process h.1 h.2 now hnone
    · left
      rw [Remembers, hstamps, hfiles]
      exact ⟨hkept, hfiled⟩
    · refine .inr ⟨?_, m, stamp, hdecode, hother, huse, hne⟩
      rw [Holds, hstamps, hfiles]
      refine ⟨hfiled, ?_⟩
      intro held hvalid
      rw [htaken] at hvalid
      exact hfiled.trans hvalid

/-- A stamp stays in memory while parts set none of the device, or one of them refers to another
stamp of the device. -/
theorem Remembers.processEach {parts : List Octets}
    (hparts : ∀ part ∈ parts, part ≠ [] ∧ part.head? ≠ some 0)
    (hsets : ∀ part ∈ parts, SetsNoStamp device part) {outcomes : List Outcome}
    (hprocess : processEach request now parts s = .ok (outcomes, t))
    (h : Remembers device file s) :
    Remembers device file t ∨ Holds device (reread file) t
      ∧ ∃ octets ∈ parts, RefersElsewhere device file.stamp octets := by
  induction parts generalizing s outcomes with
  | nil =>
    cases hprocess
    exact .inl h
  | cons part parts ih =>
    obtain ⟨hpart, hrest⟩ := List.forall_mem_cons.mp hparts
    obtain ⟨hnone, hnones⟩ := List.forall_mem_cons.mp hsets
    obtain ⟨first, between, later, hfirst, hlater, -⟩ := processEach_append_eq_ok [part] hprocess
    obtain ⟨outcome, -, hmessage⟩ := processEach_singleton_eq_ok hpart hfirst
    have hcounted : Remembers device file { s with tally := s.tally.bump .requests } := h
    rcases hcounted.processMessage hnone hmessage with hkept | ⟨hholds, helsewhere⟩
    · rcases ih hrest hnones hlater hkept with hkept | ⟨hholds, octets, hoctets, helsewhere⟩
      · exact .inl hkept
      · exact .inr ⟨hholds, octets, List.mem_cons_of_mem _ hoctets, helsewhere⟩
    · -- From here on memory and file hold the same.
      refine .inr ⟨(quiet_processEach hrest hnones hlater).holds hholds, part, ?_, helsewhere⟩
      exact List.mem_cons_self

end Memory

/-- A message that gets the place and time of a stamp is a copy, or its record has the place of the
stamp. -/
theorem processMessage_of_applied {device : String} {file : StampFile} {m : Message}
    {octets : Octets} {outcome : Outcome} (hdecode : Message.decode octets = .ok m)
    (hsensor : m.isSensor = true) (hdevice : m.entityId? = some device)
    (happlied : (s.normalizer.stamps.process device m.withoutRelays now s.files).1
      = .ok (.applied file.stamp, Stamp.restored file m.withoutRelays))
    (h : processMessage request octets now s = .ok (outcome, t)) :
    (∃ checksum, outcome = .duplicate checksum)
      ∨ ∃ record, outcome = .accepted record ∧ record.approximated = false
        ∧ record.location = placeOf file := by
  rcases processMessage_of_reading request now s hdecode hsensor hdevice with
    ⟨checksum, t', hcopy⟩ | ⟨before, hstamps, hfiles, hprocess⟩
  · rw [hcopy] at h
    cases h
    exact .inl ⟨checksum, rfl⟩
  · right
    rw [← hstamps, ← hfiles] at happlied
    rw [hprocess] at h
    obtain ⟨-, ⟨error, hrefused, -⟩ | ⟨stampOutcome, m', capturedAt, hresult, -, rfl⟩⟩ :=
      processReading_eq_ok h
    · rw [happlied] at hrefused
      cases hrefused
    · rw [happlied] at hresult
      cases hresult
      exact ⟨_, rfl, rfl, rfl⟩

/-- A part refers to a stamp of a device that the parts before it have set: the last one in front
has stored it, with a record of its own, and those in the middle set no other. -/
structure RefersBack (request : Request) (now : Instant) (state : State σ) (device : String)
    (stamp : UInt32) (m : Message) (record : SensorRecord) (front middle : List Octets)
    (part : Octets) : Prop where
  /-- The parts in front end with the message that sets the stamp. -/
  exists_set : ∃ answers before after, processEach request now front state = .ok (answers, after)
    ∧ AcceptedSet device stamp m record before after
  /-- The parts in the middle set no stamp of the device. -/
  quiet : ∀ octets ∈ middle, SetsNoStamp device octets
  /-- The part refers to the stamp. -/
  refers : ∃ n, Message.decode part = .ok n ∧ n.isSensor = true ∧ n.entityId? = some device
    ∧ n.stampUse = .apply stamp

theorem RefersBack.answered [LawfulStampStore σ] {device : String} {stamp : UInt32} {m : Message}
    {record : SensorRecord} {front middle back : List Octets} {part : Octets}
    (h : RefersBack request now s device stamp m record front middle part)
    (hparts : ∀ octets ∈ front ++ middle ++ part :: back, octets ≠ [] ∧ octets.head? ≠ some 0)
    {outcomes : List Outcome}
    (hprocess : processEach request now (front ++ middle ++ part :: back) s = .ok (outcomes, t)) :
    ∃ outcome, outcomes[(front ++ middle).length]? = some outcome
      ∧ ((∃ checksum, outcome = .duplicate checksum)
        ∨ ∃ later, outcome = .accepted later ∧ later.approximated = false
          ∧ (later.location = record.location
            ∨ ¬ PlaceSurvives m ∧ (∃ octets ∈ middle, RefersElsewhere device stamp octets)
              ∧ later.location = placeOf (reread (stampOf m stamp)))) := by
  obtain ⟨answers, before, after, hfront, hset⟩ := h.exists_set
  obtain ⟨n, hdecode, hsensor, hdevice, huse⟩ := h.refers
  have huse' : n.withoutRelays.stampUse = .apply stamp := huse
  obtain ⟨hearlier, hlater⟩ := List.forall_mem_append.mp hparts
  obtain ⟨-, hmiddle⟩ := List.forall_mem_append.mp hearlier
  obtain ⟨hpart, -⟩ := List.forall_mem_cons.mp hlater
  -- The parts in front lead to the stored stamp, those in the middle leave it, and then it is used.
  obtain ⟨earlier, between, rest, hbefore, hrest, rfl⟩ := processEach_append_eq_ok _ hprocess
  obtain ⟨_, _, passed, hstored, hpassed, -⟩ := processEach_append_eq_ok _ hbefore
  rw [hfront] at hstored
  cases hstored
  obtain ⟨hremembers, hlocation, -⟩ := hset.remembers
  obtain ⟨first, _, _, hfirst, -, rfl⟩ := processEach_append_eq_ok [part] hrest
  obtain ⟨outcome, rfl, hanswer⟩ := processEach_singleton_eq_ok hpart hfirst
  refine ⟨outcome, ?_, ?_⟩
  · rw [← length_processEach hearlier hbefore, List.singleton_append,
      List.getElem?_append_right le_rfl, Nat.sub_self]
    rfl
  · rcases hremembers.processEach hmiddle h.quiet hpassed with hkept | ⟨hholds, helsewhere⟩
    · have hcounted : Remembers device (stampOf m stamp)
          { between with tally := between.tally.bump .requests } := hkept
      rcases processMessage_of_applied hdecode hsensor hdevice (hcounted.process_eq now huse')
        hanswer with hcopy | ⟨later, rfl, hexact, hplace⟩
      · exact .inl hcopy
      · exact .inr ⟨later, rfl, hexact, .inl (hplace.trans hlocation.symm)⟩
    · have hcounted : Holds device (reread (stampOf m stamp))
          { between with tally := between.tally.bump .requests } := hholds
      rcases processMessage_of_applied hdecode hsensor hdevice (hcounted.process_eq now huse')
        hanswer with hcopy | ⟨later, rfl, hexact, hplace⟩
      · exact .inl hcopy
      · -- The stamp that the file holds is the one that was set, when its place survives.
        refine .inr ⟨later, rfl, hexact, ?_⟩
        by_cases hsurvives : PlaceSurvives m
        · rw [reread_stampOf hsurvives] at hplace
          exact .inl (hplace.trans hlocation.symm)
        · exact .inr ⟨hsurvives, helsewhere, hplace⟩

/-- A bulk payload of parts that are payloads of their own has the outcomes of its parts sent one by
one, in their order, and leaves everything as they do but the count of requests. It breaks the
collector down when they do. In particular a part that refers to a stamp which an earlier part has
set and stored gets its place, as it is read from its text if a part in between referred to another
stamp. -/
theorem process_bulk [LawfulStampStore σ] (request : Request) (now : Instant) (state : State σ)
    {parts : List Octets} (hcount : parts.length ≤ 255)
    (hlength : ∀ part ∈ parts, part.length ≤ 255)
    (hparts : ∀ part ∈ parts, part ≠ [] ∧ part.head? ≠ some 0) :
    ∃ payload, Wire.join parts = .ok payload
      ∧ SameAnswer (Tally.OneRequest parts.length) (process { request with payload } now state)
        (processEach request now parts state)
      ∧ ∀ {device stamp m record front middle part back outcomes final},
        parts = front ++ middle ++ part :: back →
          RefersBack request now state device stamp m record front middle part →
          process { request with payload } now state = .ok (outcomes, final) →
        ∃ outcome, outcomes[(front ++ middle).length]? = some outcome
          ∧ ((∃ checksum, outcome = .duplicate checksum)
            ∨ ∃ later, outcome = .accepted later ∧ later.approximated = false
              ∧ (later.location = record.location
                ∨ ¬ PlaceSurvives m ∧ (∃ octets ∈ middle, RefersElsewhere device stamp octets)
                  ∧ later.location = placeOf (reread (stampOf m stamp)))) := by
  have hjoinable : Wire.Joinable parts := ⟨hcount, hlength⟩
  have hsplit : Wire.split (Wire.bulk parts) = .ok parts := by
    have hwhole := hjoinable.split_bulk_append []
    rwa [List.append_nil] at hwhole
  have hbulk : process { request with payload := Wire.bulk parts } now state
      = processMessages request now parts { state with tally := state.tally.bump .requests } := by
    rw [process]
    dsimp only
    rw [hsplit]
    exact processMessages_withPayload ..
  -- The bulk payload has been counted as a request, and none of its parts has been yet.
  have hstart : State.Agrees (Tally.OneRequest 0)
      { state with tally := state.tally.bump .requests } state := by
    refine ⟨rfl, rfl, rfl, ?_⟩
    intro counter hcounter
    exact if_neg hcounter
  have hsame : SameAnswer (Tally.OneRequest (0 + parts.length)) _
      (processEach request now parts state) := processMessages_sameAnswer hparts hstart
  rw [Nat.zero_add] at hsame
  refine ⟨Wire.bulk parts, Wire.join_eq_ok_iff.mpr ⟨hjoinable, rfl⟩, hbulk ▸ hsame, ?_⟩
  rintro device stamp m record front middle part back outcomes final rfl hrefers hprocess
  rw [hbulk] at hprocess
  rw [hprocess] at hsame
  generalize heach : processEach request now _ state = each at hsame
  cases hsame with
  | ok hagrees => exact hrefers.answered hparts heach

end Parts

/-! ### A stamp and a message that refers to it -/

/-- A message that sets a stamp, octets that are no message, a message that refers to the stamp, and
the first one again. -/
def fourParts : List Octets :=
  [(datedMessage none).encode, [0xff], laterMessage.encode, (datedMessage none).encode]

/-- The stamp is used in the payload that sets it, and the payload means the same as its parts. -/
theorem process_bulk_fourParts :
    ∃ payload outcomes final outcome, ∃ record : SensorRecord, Wire.join fourParts = .ok payload
      ∧ process { plainRequest with payload } .epoch freshState = .ok (outcomes, final)
      ∧ SameAnswer (Tally.OneRequest 4) (process { plainRequest with payload } .epoch freshState)
        (processEach plainRequest .epoch fourParts freshState)
      ∧ outcomes[2]? = some outcome
      ∧ ((∃ checksum, outcome = .duplicate checksum)
        ∨ ∃ later, outcome = .accepted later ∧ later.approximated = false
          ∧ later.location = record.location) := by
  have hcount : fourParts.length ≤ 255 := by decide
  obtain ⟨payload, hjoin, hsame, hback⟩ := process_bulk plainRequest .epoch freshState hcount
    (by decide) (by decide)
  have hdecode : Message.decode (datedMessage none).encode = .ok (datedMessage none) :=
    decode_eq_ok (by decide +kernel)
  have hlater : Message.decode laterMessage.encode = .ok laterMessage :=
    decode_eq_ok (by decide +kernel)
  -- The first part is accepted and its stamp is stored.
  have hsome : (accepted? (processMessage plainRequest (datedMessage none).encode .epoch
      { freshState with tally := freshState.tally.bump .requests })).isSome = true := by
    decide +kernel
  obtain ⟨⟨record, after⟩, haccepted⟩ := Option.isSome_iff_exists.mp hsome
  have hfirst := eq_of_accepted? haccepted
  have hset : AcceptedSet "100" 5 (datedMessage none) record
      { freshState with tally := freshState.tally.bump .requests } after := by
    refine ⟨by decide, by decide, ?_⟩
    exact ⟨plainRequest, _, .epoch, hdecode, hfirst, by decide +kernel⟩
  have heach : processEach plainRequest .epoch [(datedMessage none).encode] freshState
      = .ok ([.accepted record], after) := by
    rw [processEach, process_single (by decide), hfirst]
    rfl
  have hrefers : RefersBack plainRequest .epoch freshState "100" 5 (datedMessage none) record
      [(datedMessage none).encode] [[0xff]] laterMessage.encode := by
    refine ⟨⟨_, _, after, heach, hset⟩, ?_, laterMessage, hlater, by decide⟩
    intro octets hoctets m hm
    rw [List.mem_singleton.mp hoctets] at hm
    cases hm
  have hanswers :
      (processEach plainRequest .epoch fourParts freshState).toOption.isSome = true := by
    decide +kernel
  obtain ⟨⟨outcomes, last⟩, hanswered⟩ := Option.isSome_iff_exists.mp hanswers
  obtain ⟨final, hprocess, -⟩ := hsame.exists_ok (eq_ok_of_toOption hanswered)
  obtain ⟨outcome, houtcome, hcopy | ⟨later, haccepts, hexact, hplace⟩⟩ :=
    hback rfl hrefers hprocess
  · exact ⟨payload, outcomes, final, outcome, record, hjoin, hprocess, hsame, houtcome, .inl hcopy⟩
  · -- The place of the stamp is read back from its text.
    have hlocation : later.location = record.location :=
      hplace.resolve_right fun hother => hother.1 (Stamp.settingMessage_survives 5 (by decide))
    exact ⟨payload, outcomes, final, outcome, record, hjoin, hprocess, hsame, houtcome,
      .inr ⟨later, haccepts, hexact, hlocation⟩⟩

end Normalizer

end FieldTelemetry.Pipeline
