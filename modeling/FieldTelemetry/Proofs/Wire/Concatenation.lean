import FieldTelemetry.Proofs.Wire.Record
import FieldTelemetry.Record.Overlay

/-!
# Messages one behind the other

The octets of two messages, one behind the other, are those of the first message under the second:
the automaton takes its way without regard to the message so far, and where a message may end the
next field may begin.

## Main definitions

* `Overlay Message`: a message under the values of another
* `Decoder.under`: the automaton with a message under the one so far

## Main results

* `Decoder.after_under`: a run does not depend on the message it starts with
* `Message.decode_append`: two messages one behind the other
-/

namespace FieldTelemetry.Wire

/-! ## Messages under others -/

instance : Overlay Message where
  overlay m update := ⟨fun f => (update f).or (m f)⟩

namespace Message

theorem overlay_apply (m update : Message) (f : Field) :
    Overlay.overlay m update f = (update f).or (m f) := rfl

theorem set_overlay (m n : Message) (f : Field) (value : f.Value) :
    (Overlay.overlay m n).set f value = Overlay.overlay m (n.set f value) := by
  apply Message.ext
  funext g
  by_cases h : g = f
  · subst h
    rw [overlay_apply, set, set, update_same, update_same, Option.some_or]
  · rw [overlay_apply, set, set, update_other _ _ h, update_other _ _ h, overlay_apply]

end Message

/-! ## Runs -/

namespace Decoder

/-- The automaton with a message under the one so far. -/
def under (m : Message) (d : Decoder) : Decoder := ⟨Overlay.overlay m d.message, d.reading⟩

variable (m n : Message)

theorem skipped_under (groups : List Nat) :
    skipped (Overlay.overlay m n) groups = (skipped n groups).under m := by
  cases groups <;> rfl

theorem skip_under (groups : List Nat) (tag : Nat) (wireType : WireType) :
    skip (Overlay.overlay m n) groups tag wireType = under m <$> skip n groups tag wireType := by
  cases wireType <;> rfl

theorem field_under (tag : Nat) (wireType : WireType) :
    field (Overlay.overlay m n) tag wireType = under m <$> field n tag wireType := by
  unfold field
  split
  · exact skip_under m n [] tag wireType
  · dsimp only
    split
    · rfl
    · split <;> rfl

theorem skippedField_under (groups : List Nat) (tag : Nat) (wireType : WireType) :
    skippedField (Overlay.overlay m n) groups tag wireType
      = under m <$> skippedField n groups tag wireType := by
  unfold skippedField
  split
  · cases groups with
    | nil => rfl
    | cons innermost groups =>
      dsimp only
      split
      · exact congrArg Except.ok (skipped_under m n groups)
      · rfl
  · split
    · rfl
    · exact skip_under m n groups tag wireType

/-- A step takes its way without regard to the message so far. -/
theorem step_under (d : Decoder) (b : UInt8) : (d.under m).step b = under m <$> d.step b := by
  obtain ⟨n, reading⟩ := d
  cases reading with
  | key v =>
    change step ⟨Overlay.overlay m n, .key v⟩ b = _
    rw [step_key, step_key, map_bind]
    congr 1
    funext r
    cases r with
    | inl v => rfl
    | inr key =>
      dsimp only
      rw [map_bind]
      simp only [field_under]
  | value f p =>
    change step ⟨Overlay.overlay m n, .value f p⟩ b = _
    rw [step_value, step_value, map_bind]
    congr 1
    funext r
    cases r with
    | inl p => rfl
    | inr payload =>
      dsimp only
      rw [map_bind]
      simp only [Message.set_overlay]
      rfl
  | skippedKey groups v =>
    change step ⟨Overlay.overlay m n, .skippedKey groups v⟩ b = _
    rw [step_skippedKey, step_skippedKey, map_bind]
    congr 1
    funext r
    cases r with
    | inl v => rfl
    | inr key =>
      dsimp only
      rw [map_bind]
      simp only [skippedField_under]
  | skippedValue groups p =>
    change step ⟨Overlay.overlay m n, .skippedValue groups p⟩ b = _
    rw [step_skippedValue, step_skippedValue, map_bind]
    congr 1
    funext r
    cases r with
    | inl p => rfl
    | inr _ => exact congrArg Except.ok (skipped_under m n groups)

/-- A run takes its way without regard to the message so far. -/
theorem after_under (d : Decoder) (octets : Octets) :
    (d.under m).after octets = under m <$> d.after octets := by
  induction octets generalizing d with
  | nil => rfl
  | cons b octets ih =>
    rw [after_cons, after_cons, step_under, map_bind, bind_map_left]
    exact congrArg (d.step b >>= ·) (funext ih)

theorem finish_under (d : Decoder) :
    (d.under m).finish = Overlay.overlay m <$> d.finish := by
  obtain ⟨n, reading⟩ := d
  cases reading with
  | key v =>
    unfold finish under
    dsimp only
    split <;> rfl
  | _ => rfl

end Decoder

/-! ## Ends of messages -/

theorem OpenVarint.count_of_step {v v' : OpenVarint} {b : UInt8}
    (h : v.step b = .ok (.inl v')) : v'.count = v.count + 1 := by
  unfold step at h
  dsimp only at h
  split at h
  · cases h
  · split at h <;> cases h
    rfl

namespace Decoder

/-- Where the automaton has read no group of a key, it stands in front of a field. -/
def Clean (d : Decoder) : Prop :=
  match d.reading with
  | .key v => v.count = 0 → v = .start
  | _ => True

theorem clean_skipped (m : Message) (groups : List Nat) : (skipped m groups).Clean := by
  cases groups with
  | nil => exact fun _ => rfl
  | cons tag groups => trivial

theorem clean_of_skip {m : Message} {groups : List Nat} {tag : Nat} {wireType : WireType}
    {d : Decoder} (h : skip m groups tag wireType = .ok d) : d.Clean := by
  cases wireType <;> cases h
  case startGroup => exact clean_skipped m (tag :: groups)
  all_goals trivial

theorem clean_of_field {m : Message} {tag : Nat} {wireType : WireType} {d : Decoder}
    (h : field m tag wireType = .ok d) : d.Clean := by
  unfold field at h
  split at h
  · exact clean_of_skip h
  · dsimp only at h
    split at h
    · cases h
    · split at h <;> cases h
      trivial

theorem clean_of_skippedField {m : Message} {groups : List Nat} {tag : Nat} {wireType : WireType}
    {d : Decoder} (h : skippedField m groups tag wireType = .ok d) : d.Clean := by
  unfold skippedField at h
  split at h
  · cases groups with
    | nil => cases h
    | cons innermost groups =>
      dsimp only at h
      split at h <;> cases h
      exact clean_skipped m groups
  · split at h
    · cases h
    · exact clean_of_skip h

theorem clean_of_step {d d' : Decoder} {b : UInt8} (h : d.step b = .ok d') : d'.Clean := by
  obtain ⟨m, reading⟩ := d
  cases reading with
  | key v =>
    obtain ⟨r, hr, h⟩ := bind_eq_ok.mp ((step_key m b v).symm.trans h)
    cases r with
    | inl v' =>
      cases h
      cases hv : v.step b with
      | error e => rw [hv] at hr; cases hr
      | ok r =>
        rw [hv] at hr
        cases hr
        have hcount := OpenVarint.count_of_step hv
        intro hzero
        omega
    | inr key =>
      obtain ⟨_, -, h⟩ := bind_eq_ok.mp h
      exact clean_of_field h
  | value f p =>
    obtain ⟨r, -, h⟩ := bind_eq_ok.mp ((step_value m b f p).symm.trans h)
    cases r with
    | inl p => cases h; trivial
    | inr payload =>
      obtain ⟨_, -, h⟩ := bind_eq_ok.mp h
      cases h
      exact clean_skipped _ []
  | skippedKey groups v =>
    obtain ⟨r, -, h⟩ := bind_eq_ok.mp ((step_skippedKey m b groups v).symm.trans h)
    cases r with
    | inl v => cases h; trivial
    | inr key =>
      obtain ⟨_, -, h⟩ := bind_eq_ok.mp h
      exact clean_of_skippedField h
  | skippedValue groups p =>
    obtain ⟨r, -, h⟩ := bind_eq_ok.mp ((step_skippedValue m b groups p).symm.trans h)
    cases r with
    | inl p => cases h; trivial
    | inr _ =>
      cases h
      exact clean_skipped m groups

theorem Clean.after {d d' : Decoder} {octets : Octets} (hclean : d.Clean)
    (h : d.after octets = .ok d') : d'.Clean := by
  induction octets generalizing d with
  | nil =>
    cases h
    exact hclean
  | cons b octets ih =>
    obtain ⟨next, hstep, hrest⟩ := bind_eq_ok.mp ((after_cons d b octets).symm.trans h)
    exact ih (clean_of_step hstep) hrest

/-- A message ends where the next field may begin. -/
theorem finish_eq_ok_iff {d : Decoder} (hclean : d.Clean) {m : Message} :
    d.finish = .ok m ↔ d = start m := by
  obtain ⟨n, reading⟩ := d
  cases reading with
  | key v =>
    unfold finish
    dsimp only
    split
    · rename_i hcount
      obtain rfl : v = .start := hclean hcount
      rw [start, Except.ok.injEq, Decoder.mk.injEq]
      exact (and_iff_left rfl).symm
    · rename_i hcount
      constructor
      · rintro ⟨⟩
      · rintro ⟨⟩
        exact absurd rfl hcount
  | _ =>
    constructor
    · rintro ⟨⟩
    · rintro ⟨⟩

end Decoder

namespace Message

/-- Octets are a message when the automaton stands in front of a field behind them. -/
theorem decode_eq_ok_iff {octets : Octets} {m : Message} :
    decode octets = .ok m ↔ (Decoder.start .empty).after octets = .ok (.start m) := by
  have hclean : (Decoder.start .empty).Clean := fun _ => rfl
  rw [decode]
  refine bind_eq_ok.trans ?_
  constructor
  · rintro ⟨d, hd, hfinish⟩
    rwa [(Decoder.finish_eq_ok_iff (hclean.after hd)).mp hfinish] at hd
  · intro h
    exact ⟨_, h, rfl⟩

/-- Octets behind those of a message are read on as if they stood alone, and their message is laid
over the one before them. -/
theorem decode_append {front : Octets} {m : Message} (h : decode front = .ok m) (back : Octets) :
    decode (front ++ back) = Overlay.overlay m <$> decode back := by
  have hfront := decode_eq_ok_iff.mp h
  have hunder : Decoder.start m = (Decoder.start .empty).under m := rfl
  change (Decoder.start .empty).after (front ++ back) >>= Decoder.finish
    = Overlay.overlay m <$> ((Decoder.start .empty).after back >>= Decoder.finish)
  rw [Decoder.after_append, hfront, ok_bind, hunder, Decoder.after_under, bind_map_left, map_bind]
  exact congrArg (_ >>= ·) (funext (Decoder.finish_under m))

end Message

end FieldTelemetry.Wire
