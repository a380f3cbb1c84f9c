import FieldTelemetry.Proofs.Intake.Dedup
import Mathlib.Data.List.Pairwise
import Mathlib.Tactic.SplitIfs

/-!
# A ring of checksums as the end of a history

However checksums and times come, the ring holds the latest checksums that were let through. One
more checksum belongs to a copy exactly when one of these is the same and less than the window old.
Two of them that are the same are the window apart, so that at most one of them is that young at any
time. Leap seconds make an exception of a second, since spans across them do not add up.

## Main definitions

* `DedupRing.checkAll`: checksums that are checked one after the other
* `freshOf`: the checksums that were let through
* `Sighting.Spaced`, `Sighting.IsYoung`: sightings that are apart, and those of an age within a span

## Main results

* `DedupRing.check_eq_copy_iff`: which checksum belongs to a copy, and of what age
* `DedupRing.Recent.check`: every check keeps the ring the end of the history
* `DedupRing.refines_history`: what the ring holds and answers after any checks
-/

namespace FieldTelemetry

/-! ## Spans that follow one another -/

namespace Time.Instant

variable {a b c : Instant}

theorem since_of_regular (ha : ¬ a.InLeapSecond) (hb : ¬ b.InLeapSecond) :
    a.since b = a.nanos - b.nanos := by
  rw [since, if_neg fun h => hb h.2, if_neg fun h => ha h.2]

/-- Two spans that follow one another come to a second more than the whole span at most. -/
theorem since_add_since_le (a b c : Instant) :
    a.since b + b.since c ≤ a.since c + nanosPerSecond := by
  unfold since InLeapSecond
  -- Each span counts a leap second at one of its ends, or leaves one out, by the times of the day.
  split_ifs <;> omega

/-- Outside of leap seconds, spans add up. -/
theorem since_add_since (ha : ¬ a.InLeapSecond) (hb : ¬ b.InLeapSecond) (hc : ¬ c.InLeapSecond) :
    a.since b + b.since c = a.since c := by
  rw [since_of_regular ha hb, since_of_regular hb hc, since_of_regular ha hc]
  omega

end Time.Instant

namespace Intake

open Time (Instant Span)

/-! ## Sightings -/

namespace Sighting

/-- Of two sightings of the same checksum, the newer one is the window later at least. -/
def Spaced (window : Span) (newer older : Sighting) : Prop :=
  newer.checksum = older.checksum → window ≤ newer.seenAt.since older.seenAt

/-- A sighting is of a checksum, and it is not ahead of an instant and less than a span before
it. -/
def IsYoung (span : Span) (checksum : UInt32) (now : Instant) (sighting : Sighting) : Prop :=
  sighting.checksum = checksum ∧ 0 ≤ now.since sighting.seenAt ∧ now.since sighting.seenAt < span

instance (span : Span) (checksum : UInt32) (now : Instant) :
    DecidablePred (IsYoung span checksum now) := fun _ => by
  unfold IsYoung; infer_instance

variable {window span : Span} {checksum : UInt32} {now : Instant} {newer older : Sighting}

/-- Of two sightings that are the window apart, one is not young but for the second that a leap
second may take. -/
theorem Spaced.not_isYoung (h : newer.Spaced window older)
    (hnewer : newer.IsYoung (window - Time.nanosPerSecond) checksum now) :
    ¬ older.IsYoung (window - Time.nanosPerSecond) checksum now := by
  rintro ⟨holder, -, hage⟩
  have hspan : newer.seenAt.since older.seenAt ≥ window := h (hnewer.1.trans holder.symm)
  have hsum := now.since_add_since_le newer.seenAt older.seenAt
  have hpos := hnewer.2.1
  omega

/-- Of two sightings that are the window apart, one is not young when no time is in a leap
second. -/
theorem Spaced.not_isYoung_of_regular (h : newer.Spaced window older)
    (hnewerTime : ¬ newer.seenAt.InLeapSecond) (holderTime : ¬ older.seenAt.InLeapSecond)
    (hnow : ¬ now.InLeapSecond) (hnewer : newer.IsYoung window checksum now) :
    ¬ older.IsYoung window checksum now := by
  rintro ⟨holder, -, hage⟩
  have hspan : newer.seenAt.since older.seenAt ≥ window := h (hnewer.1.trans holder.symm)
  have hsum := Instant.since_add_since hnow hnewerTime holderTime
  have hpos := hnewer.2.1
  omega

end Sighting

/-- Of values of which no two have a property, one has it at most. -/
theorem countP_le_one {α : Type} {p : α → Prop} [DecidablePred p] {values : List α}
    (h : values.Pairwise fun a b => p a → ¬ p b) : values.countP p ≤ 1 := by
  induction values with
  | nil => exact Nat.zero_le 1
  | cons a values ih =>
    obtain ⟨hfirst, hrest⟩ := List.pairwise_cons.mp h
    by_cases ha : p a
    · -- No other value has the property then.
      have hnone : values.countP p = 0 :=
        List.countP_eq_zero.mpr fun b hb hp => hfirst b hb ha (of_decide_eq_true hp)
      rw [List.countP_cons, hnone]
      split <;> decide
    · have hskip : (a :: values).countP p = values.countP p := List.countP_cons_of_neg (by simpa)
      rw [hskip]
      exact ih hrest

/-! ## Checks -/

/-- The checksums that were let through, with their times. -/
def freshOf (calls : List (UInt32 × Instant)) (verdicts : List Verdict) : List Sighting :=
  (calls.zip verdicts).filterMap fun ((checksum, now), verdict) =>
    if verdict = .fresh then some ⟨checksum, now⟩ else none

theorem freshOf_cons (checksum : UInt32) (now : Instant) (calls : List (UInt32 × Instant))
    (verdict : Verdict) (verdicts : List Verdict) :
    freshOf ((checksum, now) :: calls) (verdict :: verdicts)
      = (if verdict = .fresh then [⟨checksum, now⟩] else []) ++ freshOf calls verdicts := by
  cases verdict <;> rfl

namespace DedupRing

variable {capacity : Nat} {window : Span} {dedup : DedupRing capacity} {checksum : UInt32}
  {now : Instant} {history : List Sighting}

/-- The verdicts on checksums that are checked at their times, one after the other. -/
def checkAll (dedup : DedupRing capacity) :
    List (UInt32 × Instant) → List Verdict × DedupRing capacity
  | [] => ([], dedup)
  | (checksum, now) :: calls =>
    let (verdict, dedup) := dedup.check checksum now
    let (verdicts, dedup) := dedup.checkAll calls
    (verdict :: verdicts, dedup)

/-- A checksum belongs to a copy of the latest message that suppresses it. -/
theorem check_eq_copy_iff {age : Span} :
    (dedup.check checksum now).1 = .copy age
      ↔ ∃ newer sighting older, dedup.ring.entries = newer ++ sighting :: older
        ∧ sighting.Suppresses dedup.window checksum now ∧ age = now.since sighting.seenAt
        ∧ ∀ other ∈ newer, ¬ other.Suppresses dedup.window checksum now := by
  have hfind (sighting : Sighting) : dedup.find? checksum now = some sighting
      ↔ sighting.Suppresses dedup.window checksum now
        ∧ ∃ newer older, dedup.ring.entries = newer ++ sighting :: older
          ∧ ∀ other ∈ newer, ¬ other.Suppresses dedup.window checksum now := by
    simp only [find?, List.find?_eq_some_iff_append, Sighting.Suppresses, Bool.and_eq_true,
      beq_iff_eq, decide_eq_true_eq, Bool.not_eq_true', ← Bool.not_eq_true]
  rw [check]
  cases hresult : dedup.find? checksum now with
  | none =>
    constructor
    · intro hfresh
      cases hfresh
    · rintro ⟨newer, sighting, older, hentries, hsuppresses, -, hnewer⟩
      have hsome := (hfind sighting).mpr ⟨hsuppresses, newer, older, hentries, hnewer⟩
      rw [hresult] at hsome
      cases hsome
  | some found =>
    dsimp only
    constructor
    · rintro ⟨⟩
      obtain ⟨hsuppresses, newer, older, hentries, hnewer⟩ := (hfind found).mp hresult
      exact ⟨newer, found, older, hentries, hsuppresses, rfl, hnewer⟩
    · rintro ⟨newer, sighting, older, hentries, hsuppresses, rfl, hnewer⟩
      have hsome := (hfind sighting).mpr ⟨hsuppresses, newer, older, hentries, hnewer⟩
      rw [hresult] at hsome
      cases hsome
      rfl

/-- A ring is the end of a history: it holds the latest checksums that were let through, and the
same ones are the window apart. -/
structure Recent (window : Span) (history : List Sighting) (dedup : DedupRing capacity) : Prop where
  /-- The window does not change. -/
  window_eq : dedup.window = window
  /-- The latest checksums are remembered. -/
  entries_eq : dedup.ring.entries = history.take capacity
  /-- The same ones are apart. -/
  spaced : dedup.ring.entries.Pairwise (Sighting.Spaced window)

theorem recent_empty (window : Span) : Recent window [] (empty window : DedupRing capacity) :=
  ⟨rfl, rfl, by
    have hentries : (empty window : DedupRing capacity).ring.entries = [] := List.take_nil
    rw [hentries]
    exact .nil⟩

/-- A check lets a checksum through, and the ring is the end of the longer history, or it finds a
copy and leaves the ring as it is. -/
theorem Recent.check (h : Recent window history dedup) (checksum : UInt32) (now : Instant) :
    ((dedup.check checksum now).1 = .fresh
        ∧ Recent window (⟨checksum, now⟩ :: history) (dedup.check checksum now).2)
      ∨ (dedup.check checksum now).1 ≠ .fresh ∧ (dedup.check checksum now).2 = dedup := by
  by_cases hcopy : dedup.Suppresses checksum now
  · obtain ⟨age, hcheck⟩ := check_of_suppressed hcopy
    rw [hcheck]
    exact .inr ⟨by simp, rfl⟩
  · rw [check_of_fresh hcopy]
    refine .inl ⟨rfl, h.window_eq, Ring.entries_push_eq_take _ _ h.entries_eq, ?_⟩
    -- What is remembered does not suppress the checksum, so it is the window older or another one.
    have hnew : ∀ older ∈ dedup.ring.entries, Sighting.Spaced window ⟨checksum, now⟩ older := by
      intro older hmem hsame
      by_contra hclose
      exact hcopy ⟨older, hmem, hsame.symm, h.window_eq ▸ Int.not_le.mp hclose⟩
    exact (List.pairwise_cons.mpr ⟨hnew, h.spaced⟩).sublist (List.take_sublist ..)

/-- After any checks the ring is the end of the history that they have made longer. -/
theorem Recent.checkAll (h : Recent window history dedup) (calls : List (UInt32 × Instant)) :
    (dedup.checkAll calls).1.length = calls.length
      ∧ Recent window ((freshOf calls (dedup.checkAll calls).1).reverse ++ history)
        (dedup.checkAll calls).2 := by
  induction calls generalizing dedup history with
  | nil => exact ⟨rfl, h⟩
  | cons call calls ih =>
    obtain ⟨checksum, now⟩ := call
    rw [DedupRing.checkAll]
    dsimp only
    rcases h.check checksum now with ⟨hfresh, hnext⟩ | ⟨hcopy, hsame⟩
    · obtain ⟨hlength, hrecent⟩ := ih hnext
      refine ⟨congrArg (· + 1) hlength, ?_⟩
      rw [freshOf_cons, if_pos hfresh, List.reverse_append, List.append_assoc]
      exact hrecent
    · rw [hsame]
      obtain ⟨hlength, hrecent⟩ := ih h
      refine ⟨congrArg (· + 1) hlength, ?_⟩
      rw [freshOf_cons, if_neg hcopy]
      exact hrecent

/-- After any checks, in whatever order their times come, a ring that was empty holds the latest of
the checksums that were let through, as many as it can. One more checksum belongs to a copy exactly
when one of them is the same and less than the window ago, the latest such one gives the age, and
the ring stays as it is. Of two remembered sightings of a checksum the newer one is the window later
at least. So at any instant at most one of them is not ahead of it and less than the window before
it, or a second less than the window where leap seconds are about. -/
theorem refines_history (capacity : Nat) (window : Span) (calls : List (UInt32 × Instant)) :
    let checked := (empty window : DedupRing capacity).checkAll calls
    let remembered := (freshOf calls checked.1).reverse.take capacity
    checked.1.length = calls.length ∧ checked.2.ring.entries = remembered
      ∧ (∀ checksum now,
        (∀ age, (checked.2.check checksum now).1 = .copy age
          ↔ ∃ newer sighting older, remembered = newer ++ sighting :: older
            ∧ sighting.Suppresses window checksum now ∧ age = now.since sighting.seenAt
            ∧ ∀ other ∈ newer, ¬ other.Suppresses window checksum now)
        ∧ ((checked.2.check checksum now).1 ≠ .fresh →
          (checked.2.check checksum now).2 = checked.2))
      ∧ (remembered.Pairwise fun newer older =>
        newer.checksum = older.checksum → window ≤ newer.seenAt.since older.seenAt)
      ∧ ∀ checksum now,
        remembered.countP (Sighting.IsYoung (window - Time.nanosPerSecond) checksum now) ≤ 1
          ∧ (¬ now.InLeapSecond → (∀ sighting ∈ remembered, ¬ sighting.seenAt.InLeapSecond) →
            remembered.countP (Sighting.IsYoung window checksum now) ≤ 1) := by
  intro checked remembered
  have hempty : Recent window [] (empty window : DedupRing capacity) := recent_empty window
  obtain ⟨hlength, hrecent⟩ := hempty.checkAll calls
  rw [List.append_nil] at hrecent
  have hentries : checked.2.ring.entries = remembered := hrecent.entries_eq
  have hspaced : remembered.Pairwise (Sighting.Spaced window) := hentries ▸ hrecent.spaced
  refine ⟨hlength, hentries, ?_, hspaced, ?_⟩
  · intro checksum now
    refine ⟨fun age => ?_, ?_⟩
    · rw [check_eq_copy_iff, hentries]
      have hwindow : checked.2.window = window := hrecent.window_eq
      rw [hwindow]
    · intro hcopy
      rcases hrecent.check checksum now with ⟨hfresh, -⟩ | ⟨-, hsame⟩
      · exact absurd hfresh hcopy
      · exact hsame
  · intro checksum now
    refine ⟨countP_le_one (hspaced.imp fun h => h.not_isYoung), ?_⟩
    intro hnow hregular
    apply countP_le_one
    refine hspaced.imp_of_mem ?_
    intro newer older hnewer holder h
    exact h.not_isYoung_of_regular (hregular _ hnewer) (hregular _ holder) hnow

/-- The instant a number of seconds after the first second of 1970. -/
def atSecond (second : Nat) : Instant := (Instant.make? second 0).getD .epoch

/-- Checks of three checksums, of which one comes again early, late, and at a time long before. -/
def scatteredCalls : List (UInt32 × Instant) :=
  [(7, atSecond 0), (5, atSecond 10), (7, atSecond 59), (7, atSecond 60), (7, atSecond 30)]

/-- A checksum that comes again after a minute is remembered twice, and suppresses one that was
checked at a time before it. Of the two sightings one is less than a minute old later on. -/
theorem refines_history_backwards :
    let checked := (empty dedupWindow : DedupRing 3).checkAll scatteredCalls
    let remembered := (freshOf scatteredCalls checked.1).reverse.take 3
    checked.1 = [.fresh, .fresh, .copy (Span.ofMillis 59000), .fresh,
        .copy (Span.ofMillis (-30000))]
      ∧ checked.2.ring.entries = [⟨7, atSecond 60⟩, ⟨5, atSecond 10⟩, ⟨7, atSecond 0⟩]
      ∧ ¬ (atSecond 65).InLeapSecond
      ∧ (∀ sighting ∈ remembered, ¬ sighting.seenAt.InLeapSecond)
      ∧ remembered.countP (Sighting.IsYoung dedupWindow 7 (atSecond 65)) ≤ 1 := by
  intro checked remembered
  obtain ⟨-, -, -, -, hyoung⟩ := refines_history 3 dedupWindow scatteredCalls
  have hnow : ¬ (atSecond 65).InLeapSecond := by decide
  have hregular : ∀ sighting ∈ remembered, ¬ sighting.seenAt.InLeapSecond := by decide +kernel
  exact ⟨by decide +kernel, by decide +kernel, hnow, hregular,
    (hyoung 7 (atSecond 65)).2 hnow hregular⟩

/-- The instant in a second after the first second of 1970 that lies so many nanoseconds into it. -/
def atNano (second nano : Nat) : Instant := (Instant.make? second nano).getD .epoch

/-- Checks of a checksum in the first second of a minute and in the leap second at its end. -/
def leapSecondCalls : List (UInt32 × Instant) :=
  [(7, atNano 0 400000000), (7, atNano 59 1450000000)]

/-- Two sightings that are more than a minute apart, by the leap second between them, are both less
than a minute old in the minute after it. -/
theorem young_twice_after_leapSecond :
    let checked := (empty dedupWindow : DedupRing 25).checkAll leapSecondCalls
    checked.1 = [.fresh, .fresh]
      ∧ checked.2.ring.entries = [⟨7, atNano 59 1450000000⟩, ⟨7, atNano 0 400000000⟩]
      ∧ checked.2.ring.entries.map (fun sighting => (atNano 60 200000000).since sighting.seenAt)
        = [Span.ofMillis 750, Span.ofMillis 59800]
      ∧ ¬ checked.2.ring.entries.countP
        (Sighting.IsYoung dedupWindow 7 (atNano 60 200000000)) ≤ 1 := by
  decide +kernel

end DedupRing

end Intake

end FieldTelemetry
