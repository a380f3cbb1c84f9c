import FieldTelemetry.Store.Reconcile

/-!
# How calls end

With nobody else at work, a call takes its steps one after the other up to its end. What every step
preserves is there at the end, such as why a call can fail: for its id before the first step, and
for want of a successful cycle after the last one.

## Main definitions

* `Call.FailsByExhaustion`: a call fails for want of a successful cycle, if it fails

## Main results

* `Call.finish_preserves`: what every step of a call preserves is there at its end
* `Call.run_eq_invalidId_iff`: calls are refused for their id, and for nothing else
-/

namespace FieldTelemetry.Store

open Time (Instant)

variable {α σ : Type} [Mergeable α] [Backend σ] (call : Call α) (now : Instant)

theorem Call.finish_step (phase : Phase α) (state : σ) : call.finish now phase state
    = call.finish now (call.step now phase state).1 (call.step now phase state).2 := by
  cases phase with
  | done result => rw [step]
  | _ => rw [finish]

/-- What every step of a call preserves is there at its end. -/
theorem Call.finish_preserves {P : Phase α → σ → Prop}
    (hstep : ∀ phase state, P phase state →
      P (call.step now phase state).1 (call.step now phase state).2)
    (phase : Phase α) (state : σ) (h : P phase state) :
    P (.done (call.finish now phase state).1) (call.finish now phase state).2 := by
  fun_induction Call.finish call now phase state with
  | case1 => exact h
  | case2 _ _ _ _ ih => exact ih (hstep _ _ h)
  | case3 _ _ _ _ _ ih => exact ih (hstep _ _ h)
  | case4 _ _ _ _ _ ih => exact ih (hstep _ _ h)

/-- A call fails for want of a successful cycle, if it fails. -/
def Call.FailsByExhaustion (phase : Phase α) : Prop :=
  ∀ error, phase = .done (.error error) → error = call.unconverged

omit [Mergeable α] in
theorem Call.failsByExhaustion_begin (left : Nat) : call.FailsByExhaustion (call.begin left) := by
  intro error herror
  cases left with
  | zero =>
    cases herror
    rfl
  | succ more => cases herror

theorem Call.failsByExhaustion_step (phase : Phase α) (state : σ)
    (h : call.FailsByExhaustion phase) :
    call.FailsByExhaustion (call.step now phase state).1 := by
  cases phase with
  | reading more =>
    rw [step]
    split
    · exact call.failsByExhaustion_begin more
    · rintro error ⟨⟩
  | writing more s =>
    rw [step]
    split
    · exact call.failsByExhaustion_begin more
    · rintro error ⟨⟩
  | verifying more s =>
    rw [step]
    dsimp only
    split
    · rintro error ⟨⟩
    · exact call.failsByExhaustion_begin more
  | done result => exact h

/-- A call is refused for its id, without a word to the backend, and for nothing else. -/
theorem Call.run_eq_invalidId_iff (state : σ) (id : String) :
    (call.run now state).1 = .error (.invalidId id)
      ↔ ¬ EntityId.Valid call.id ∧ id = call.id := by
  rw [run, start]
  by_cases hid : EntityId.Valid call.id
  · rw [if_pos hid]
    refine ⟨fun herror => ?_, fun h => absurd hid h.1⟩
    have hends := call.finish_preserves now (fun phase (_ : σ) h => call.failsByExhaustion_step now
      phase _ h) _ state (call.failsByExhaustion_begin call.attempts)
    cases hends _ (congrArg Phase.done herror)
  · rw [if_neg hid, finish]
    simp [hid, eq_comm]

theorem Call.run_of_not_valid (h : ¬ EntityId.Valid call.id) (state : σ) :
    call.run now state = (.error (.invalidId call.id), state) := by
  rw [run, start, if_neg h, finish]

end FieldTelemetry.Store
