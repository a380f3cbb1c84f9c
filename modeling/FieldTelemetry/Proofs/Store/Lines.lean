import FieldTelemetry.Proofs.Store.Visits

/-!
# The order of lines

In the line of an entity the calls that have ended stand in front, behind them at most one that is
at work, and then those that wait. Which of the lines of other entities moves does not matter.

## Main definitions

* `InFrontOf`: one call stands in front of another one
* `InLine`: the calls for an entity stand in line
* `Orderly`: the calls for all entities do

## Main results

* `InLine.isGone_of_mayPass`: those in front of a call whose turn it is have ended
* `InLine.mayPass`: it is the turn of a call when those in front have left
* `InLine.take`, `InLine.next`: calls stand in line when one is made and when one takes a step
* `orderly_run`: calls stand in line at all times
* `exists_run_hasLeft`: all calls for an entity can come to their end
-/

namespace FieldTelemetry.Store.Office

open Time (Instant)

variable {α : Type}

/-- One visit stands in front of another one: it took its ticket earlier, the other one does not
wait for a ticket before that one, and it has ended when the other one has had its turn. -/
structure InFrontOf (a b : Visit α) : Prop where
  /-- Its ticket has the smaller number. -/
  number_lt : a.number < b.number
  /-- The other one waits for no ticket before this one. -/
  le_behind : ∀ n, b.ticket.behind = some n → a.number ≤ n
  /-- It has ended when the ticket of the other one waits for none. -/
  isGone_of_behind : b.ticket.behind = none → a.stage.isGone = true
  /-- It has ended when the other one has begun. -/
  isGone_of_hasBegun : b.stage.hasBegun = true → a.stage.isGone = true

/-- The visits of an entity stand in line. -/
structure InLine (lanes : Lanes) (id : String) (line : List (Visit α)) : Prop where
  /-- They are calls for the entity, whose tickets have been taken. -/
  id_eq : ∀ visit ∈ line, visit.ticket.id = id ∧ visit.call.id = id
  /-- Their numbers have been given. -/
  number_le : ∀ visit ∈ line, visit.number ≤ lanes.taken
  /-- They hold their tickets until they leave. -/
  held_iff : ∀ visit ∈ line, visit.number ∈ lanes.held ↔ visit.stage.hasLeft = false
  /-- The last one has the newest ticket until it has ended. -/
  tail : lanes.tails.get? id
    = (line.getLast?.filter fun visit => !visit.stage.isGone).map Visit.number
  /-- Everyone stands in front of those behind. -/
  inFront : line.Pairwise InFrontOf
  /-- A ticket that is waited for is that of a visit in front. -/
  ahead : ∀ b ∈ line, ∀ n, b.ticket.behind = some n → n ∈ line.map Visit.number ∧ n < b.number

namespace InLine

variable {lanes : Lanes} {id : String} {line front back : List (Visit α)} {visit a b : Visit α}

theorem inFrontOf_or_eq (h : InLine lanes id line) (ha : a ∈ line) (hb : b ∈ line) :
    InFrontOf a b ∨ a = b ∨ InFrontOf b a := by
  have hpairwise := h.inFront
  clear h
  induction line with
  | nil => cases ha
  | cons first rest ih =>
    obtain ⟨hfirst, hrest⟩ := List.pairwise_cons.mp hpairwise
    rcases List.mem_cons.mp ha with hfirst_a | ha
    · rcases List.mem_cons.mp hb with hfirst_b | hb
      · exact .inr (.inl (hfirst_a.trans hfirst_b.symm))
      · exact .inl (hfirst_a ▸ hfirst b hb)
    · rcases List.mem_cons.mp hb with hfirst_b | hb
      · exact .inr (.inr (hfirst_b ▸ hfirst a ha))
      · exact ih ha hb hrest

theorem eq_of_number (h : InLine lanes id line) (ha : a ∈ line) (hb : b ∈ line)
    (hnumber : a.number = b.number) : a = b := by
  rcases h.inFrontOf_or_eq ha hb with hfront | rfl | hfront
  · exact absurd hnumber hfront.number_lt.ne
  · rfl
  · exact absurd hnumber hfront.number_lt.ne'

theorem inFrontOf (h : InLine lanes id line) (ha : a ∈ line) (hb : b ∈ line)
    (hlt : a.number < b.number) : InFrontOf a b := by
  rcases h.inFrontOf_or_eq ha hb with hfront | rfl | hfront
  · exact hfront
  · exact absurd hlt (lt_irrefl _)
  · exact absurd hlt (Nat.lt_asymm hfront.number_lt)

theorem inFrontOf_of_front (h : InLine lanes id (front ++ visit :: back)) (ha : a ∈ front) :
    InFrontOf a visit :=
  (List.pairwise_append.mp h.inFront).2.2 a ha visit List.mem_cons_self

theorem inFrontOf_of_back (h : InLine lanes id (front ++ visit :: back)) (hb : b ∈ back) :
    InFrontOf visit b :=
  (List.pairwise_cons.mp (List.pairwise_append.mp h.inFront).2.1).1 b hb

/-- Who waits for a ticket waits for one in front. -/
theorem exists_front (h : InLine lanes id (front ++ visit :: back)) {n : Nat}
    (hbehind : visit.ticket.behind = some n) : ∃ a ∈ front, a.number = n := by
  obtain ⟨hnumber, hlt⟩ := h.ahead visit (List.mem_append_right _ List.mem_cons_self) n hbehind
  obtain ⟨a, ha, rfl⟩ := List.mem_map.mp hnumber
  rcases List.mem_append.mp ha with ha | ha
  · exact ⟨a, ha, rfl⟩
  · exfalso
    rcases List.mem_cons.mp ha with rfl | ha
    · exact lt_irrefl _ hlt
    · -- Those behind have larger numbers.
      exact Nat.lt_asymm hlt (h.inFrontOf_of_back ha).number_lt

/-- The newest ticket for an entity is that of a visit in its line, and the largest one. -/
theorem of_get?_tails_eq_some (h : InLine lanes id line) {n : Nat}
    (hnewest : lanes.tails.get? id = some n) :
    n ∈ line.map Visit.number ∧ ∀ a ∈ line, a.number ≤ n := by
  obtain ⟨last, hlast, rfl⟩ := Option.map_eq_some_iff.mp (h.tail.symm.trans hnewest)
  obtain ⟨hlast, -⟩ := Option.filter_eq_some_iff.mp hlast
  obtain ⟨front, rfl⟩ := List.getLast?_eq_some_iff.mp hlast
  refine ⟨List.mem_map_of_mem (List.mem_of_getLast? hlast), ?_⟩
  rw [List.forall_mem_append, List.forall_mem_singleton]
  exact ⟨fun a ha => (h.inFrontOf_of_front ha).number_lt.le, le_rfl⟩

/-- When no ticket for an entity is remembered, the visits in its line have ended. -/
theorem isGone_of_get?_tails_eq_none (h : InLine lanes id line)
    (hnone : lanes.tails.get? id = none) : ∀ a ∈ line, a.stage.isGone = true := by
  rcases List.eq_nil_or_concat' line with rfl | ⟨front, last, rfl⟩
  · exact fun _ ha => absurd ha List.not_mem_nil
  · have htail := h.tail
    rw [List.getLast?_concat, hnone] at htail
    have hlast : last.stage.isGone = true := by
      by_contra hstays
      rw [Option.filter_some_pos (by simpa using hstays)] at htail
      cases htail
    rw [List.forall_mem_append, List.forall_mem_singleton]
    have hbegun := Stage.hasBegun_of_isGone hlast
    exact ⟨fun a ha => (h.inFrontOf_of_front ha).isGone_of_hasBegun hbegun, hlast⟩

/-- When it is the turn of a visit, those in front of it have ended. -/
theorem isGone_of_mayPass (h : InLine lanes id (front ++ visit :: back))
    (hpass : lanes.mayPass visit.ticket = true) : ∀ a ∈ front, a.stage.isGone = true := by
  intro a ha
  have hfront := h.inFrontOf_of_front ha
  cases hbehind : visit.ticket.behind with
  | none => exact hfront.isGone_of_behind hbehind
  | some n =>
    -- The visit that is waited for has left, so those in front of that one have ended.
    obtain ⟨previous, hprevious, rfl⟩ := h.exists_front hbehind
    have hmem := List.mem_append_left (visit :: back) hprevious
    have hleft : previous.stage.hasLeft = true := by
      rw [← Bool.not_eq_false, ← h.held_iff previous hmem]
      exact Lanes.mayPass_iff.mp hpass _ hbehind
    have hgone := Stage.isGone_of_hasLeft hleft
    have hmem' := List.mem_append_left (visit :: back) ha
    rcases Nat.lt_or_eq_of_le (hfront.le_behind _ hbehind) with hlt | heq
    · exact (h.inFrontOf hmem' hmem hlt).isGone_of_hasBegun (Stage.hasBegun_of_isGone hgone)
    · exact h.eq_of_number hmem' hmem heq ▸ hgone

/-- It is the turn of a visit when those in front of it have left. -/
theorem mayPass (h : InLine lanes id (front ++ visit :: back))
    (hleft : ∀ a ∈ front, a.stage.hasLeft = true) : lanes.mayPass visit.ticket = true := by
  rw [Lanes.mayPass_iff]
  intro n hbehind hheld
  obtain ⟨a, ha, rfl⟩ := h.exists_front hbehind
  rw [h.held_iff a (List.mem_append_left _ ha), hleft a ha] at hheld
  cases hheld

/-- Those behind a visit that has not ended wait for their turn. -/
theorem waiting_of_back (h : InLine lanes id (front ++ visit :: back))
    (hstage : visit.stage.isGone = false) : ∀ b ∈ back, b.stage = .waiting := by
  intro b hb
  cases hwaiting : b.stage with
  | waiting => rfl
  | _ =>
    have hgone := (h.inFrontOf_of_back hb).isGone_of_hasBegun (by rw [hwaiting]; rfl)
    rw [hstage] at hgone
    cases hgone

/-! ### What keeps a line -/

theorem nil (hnone : lanes.tails.get? id = none) : InLine lanes id ([] : List (Visit α)) where
  id_eq _ h := absurd h List.not_mem_nil
  number_le _ h := absurd h List.not_mem_nil
  held_iff _ h := absurd h List.not_mem_nil
  tail := hnone
  inFront := .nil
  ahead _ h := absurd h List.not_mem_nil

theorem congr {lanes' : Lanes} (h : InLine lanes id line) (htaken : lanes.taken ≤ lanes'.taken)
    (htail : lanes'.tails.get? id = lanes.tails.get? id)
    (hheld : ∀ visit ∈ line, visit.number ∈ lanes'.held ↔ visit.number ∈ lanes.held) :
    InLine lanes' id line where
  id_eq := h.id_eq
  number_le visit hmem := (h.number_le visit hmem).trans htaken
  held_iff visit hmem := (hheld visit hmem).trans (h.held_iff visit hmem)
  tail := htail.trans h.tail
  inFront := h.inFront
  ahead := h.ahead

/-- A call stands behind the others. -/
theorem take {call : Call α} (h : InLine lanes id line) (hid : call.id = id) :
    InLine (lanes.take id).2 id (line ++ [{ queued := ⟨(lanes.take id).1, call⟩ }]) where
  id_eq := List.forall_mem_append.mpr ⟨h.id_eq, List.forall_mem_singleton.mpr ⟨rfl, hid⟩⟩
  number_le := by
    rw [List.forall_mem_append, List.forall_mem_singleton]
    exact ⟨fun visit hmem => (h.number_le visit hmem).trans (Nat.le_succ _), le_rfl⟩
  held_iff := by
    rw [List.forall_mem_append, List.forall_mem_singleton]
    refine ⟨fun visit hmem => ?_, iff_of_true List.mem_cons_self rfl⟩
    have hle := h.number_le visit hmem
    change visit.number ∈ (lanes.taken + 1) :: lanes.held ↔ _
    rw [List.mem_cons, h.held_iff visit hmem]
    exact or_iff_right (by omega)
  tail := by
    change (lanes.tails.insert id (lanes.taken + 1)).get? id = _
    rw [Table.get?_insert, if_pos rfl, List.getLast?_concat]
    rfl
  inFront := by
    rw [List.pairwise_append]
    refine ⟨h.inFront, List.pairwise_singleton _ _, fun a ha => List.forall_mem_singleton.mpr ?_⟩
    refine ⟨Nat.lt_succ_of_le (h.number_le a ha), ?_, ?_, nofun⟩
    · exact fun n hbehind => (h.of_get?_tails_eq_some hbehind).2 a ha
    · exact fun hnone => h.isGone_of_get?_tails_eq_none hnone a ha
  ahead := by
    rw [List.map_append, List.forall_mem_append, List.forall_mem_singleton]
    refine ⟨fun b hb n hbehind => ?_, fun n hbehind => ?_⟩
    · exact (h.ahead b hb n hbehind).imp_left (List.mem_append_left _)
    · obtain ⟨hnumber, -⟩ := h.of_get?_tails_eq_some hbehind
      obtain ⟨last, hlast, rfl⟩ := List.mem_map.mp hnumber
      exact ⟨List.mem_append_left _ hnumber, Nat.lt_succ_of_le (h.number_le last hlast)⟩

theorem getLast?_line (front back : List (Visit α)) (visit : Visit α) :
    (front ++ visit :: back).getLast? = some (back.getLast?.getD visit) := by
  rw [List.getLast?_append, List.getLast?_cons, Option.some_or]

theorem forall_mem_replace {P : Visit α → Prop} (h : ∀ v ∈ front ++ visit :: back, P v)
    {visit' : Visit α} (hvisit : P visit') : ∀ v ∈ front ++ visit' :: back, P v := by
  rw [List.forall_mem_append, List.forall_mem_cons] at h ⊢
  exact ⟨h.1, hvisit, h.2.2⟩

/-- A visit comes to another stage. -/
theorem replace {lanes' : Lanes} {stage : Stage α}
    (h : InLine lanes id (front ++ visit :: back)) (htaken : lanes'.taken = lanes.taken)
    (hgone : visit.stage.isGone = true → stage.isGone = true)
    (hbegun : stage.hasBegun = true → ∀ a ∈ front, a.stage.isGone = true)
    (hself : visit.number ∈ lanes'.held ↔ stage.hasLeft = false)
    (hothers : ∀ n, n ≠ visit.number → (n ∈ lanes'.held ↔ n ∈ lanes.held))
    (htail : lanes'.tails.get? id = ((some (back.getLast?.getD { visit with stage })).filter
      fun visit => !visit.stage.isGone).map Visit.number) :
    InLine lanes' id (front ++ { visit with stage } :: back) := by
  have hmem : visit ∈ front ++ visit :: back := List.mem_append_right _ List.mem_cons_self
  have hnumbers : (front ++ { visit with stage } :: back).map Visit.number
      = (front ++ visit :: back).map Visit.number := by
    rw [List.map_append, List.map_append]
    rfl
  refine ⟨?_, ?_, ?_, ?_, ?_, ?_⟩
  · exact forall_mem_replace h.id_eq (h.id_eq visit hmem)
  · rw [htaken]
    exact forall_mem_replace h.number_le (h.number_le visit hmem)
  · rw [List.forall_mem_append, List.forall_mem_cons]
    refine ⟨fun a ha => ?_, hself, fun b hb => ?_⟩
    · rw [hothers _ (h.inFrontOf_of_front ha).number_lt.ne]
      exact h.held_iff a (List.mem_append_left _ ha)
    · rw [hothers _ (h.inFrontOf_of_back hb).number_lt.ne']
      exact h.held_iff b (List.mem_append_right _ (List.mem_cons_of_mem _ hb))
  · rw [getLast?_line]
    exact htail
  · obtain ⟨hfront, hrest, hcross⟩ := List.pairwise_append.mp h.inFront
    rw [List.pairwise_append, List.pairwise_cons]
    refine ⟨hfront, ⟨fun b hb => ?_, (List.pairwise_cons.mp hrest).2⟩, fun a ha => ?_⟩
    · obtain ⟨hlt, hle, hnone, hhas⟩ := h.inFrontOf_of_back hb
      exact ⟨hlt, hle, fun hbehind => hgone (hnone hbehind), fun hbegins => hgone (hhas hbegins)⟩
    · obtain ⟨hvisit, hback⟩ := List.forall_mem_cons.mp (hcross a ha)
      refine List.forall_mem_cons.mpr ⟨?_, hback⟩
      exact ⟨hvisit.number_lt, hvisit.le_behind, hvisit.isGone_of_behind, fun hbegins =>
        hbegun hbegins a ha⟩
  · rw [hnumbers]
    exact forall_mem_replace h.ahead (h.ahead visit hmem)

theorem newest_congr {stage : Stage α} (back : List (Visit α)) (visit : Visit α)
    (hsame : stage.isGone = visit.stage.isGone) :
    ((some (back.getLast?.getD { visit with stage })).filter fun visit =>
        !visit.stage.isGone).map Visit.number
      = ((some (back.getLast?.getD visit)).filter fun visit =>
        !visit.stage.isGone).map Visit.number := by
  cases back.getLast? with
  | some last => rfl
  | none =>
    simp only [Option.getD_none, Option.filter_some, hsame]
    split <;> rfl

/-- A visit that ends is not the newest one of its entity any more. -/
theorem get?_tails_forget (h : InLine lanes id (front ++ visit :: back)) {stage : Stage α}
    (hstage : visit.stage.isGone = false) (hgone : stage.isGone = true) :
    (lanes.forget visit.ticket).tails.get? id
      = ((some (back.getLast?.getD { visit with stage })).filter fun visit =>
        !visit.stage.isGone).map Visit.number := by
  have htail := h.tail
  have hid := (h.id_eq visit (List.mem_append_right _ List.mem_cons_self)).1
  rw [getLast?_line] at htail
  rw [Lanes.get?_tails_forget, hid]
  cases hlast : back.getLast? with
  | none =>
    rw [hlast, Option.getD_none, Option.filter_some_pos (by simp [hstage])] at htail
    rw [if_pos ⟨rfl, htail⟩, Option.getD_none, Option.filter_some_neg (by simp [hgone])]
    rfl
  | some last =>
    rw [hlast] at htail
    rw [if_neg]
    · exact htail
    · rintro ⟨-, hnewest⟩
      -- A visit behind has a larger number.
      have hback := List.mem_of_getLast? hlast
      have hle := (h.of_get?_tails_eq_some hnewest).2 last
        (List.mem_append_right _ (List.mem_cons_of_mem _ hback))
      exact absurd (h.inFrontOf_of_back hback).number_lt (Nat.not_lt_of_le hle)

/-- A visit takes a step. -/
theorem next {σ : Type} [Mergeable α] [Backend σ] {lanes' : Lanes} {now : Instant}
    {store store' : σ} {stage : Stage α} (h : InLine lanes id (front ++ visit :: back))
    (hnext : visit.Next lanes now store stage lanes' store') :
    InLine lanes' id (front ++ { visit with stage } :: back) := by
  have hheld := h.held_iff visit (List.mem_append_right _ List.mem_cons_self)
  have htail := h.tail
  rw [getLast?_line] at htail
  have hfront (hbegun : visit.stage.hasBegun = true) (a : Visit α) (ha : a ∈ front) :
      a.stage.isGone = true := (h.inFrontOf_of_front ha).isGone_of_hasBegun hbegun
  cases hnext with
  | begins hstage hpass =>
    rw [hstage] at hheld
    refine h.replace rfl ?_ (fun _ => h.isGone_of_mayPass hpass) hheld (fun _ _ => Iff.rfl) ?_
    · rw [hstage]
      exact nofun
    · rw [newest_congr _ _ (by rw [hstage]; rfl)]
      exact htail
  | works hstage hphase =>
    rw [hstage] at hheld
    refine h.replace rfl ?_ (fun _ => hfront (by rw [hstage]; rfl)) hheld (fun _ _ => Iff.rfl) ?_
    · rw [hstage]
      exact nofun
    · rw [newest_congr _ _ (by rw [hstage]; rfl)]
      exact htail
  | ends hstage =>
    rw [hstage] at hheld
    refine h.replace rfl (fun _ => rfl) (fun _ => hfront (by rw [hstage]; rfl)) hheld
      (fun _ _ => Iff.rfl) ?_
    exact h.get?_tails_forget (by rw [hstage]; rfl) rfl
  | leaves hstage =>
    refine h.replace rfl (fun _ => rfl) (fun _ => hfront (by rw [hstage]; rfl)) ?_ ?_ ?_
    · rw [Lanes.mem_held_release]
      exact iff_of_false (fun hstill => hstill.2 rfl) nofun
    · intro n hne
      rw [Lanes.mem_held_release]
      exact and_iff_left hne
    · rw [newest_congr _ _ (by rw [hstage]; rfl)]
      exact htail

end InLine

/-! ## All lines -/

/-- The visits of all entities stand in line, and no two of them have the same ticket. -/
structure Orderly {σ : Type} (office : Office α σ) : Prop where
  /-- The visits of every entity stand in line. -/
  line : ∀ id, InLine office.lanes id (office.lines id)
  /-- Visits of two entities have two numbers. -/
  apart : ∀ {id id' : String} {visit visit' : Visit α}, visit ∈ office.lines id →
    visit' ∈ office.lines id' → visit.number = visit'.number → id = id'

namespace Orderly

variable {σ : Type} {office : Office α σ}

theorem start (store : σ) : Orderly ({ store } : Office α σ) where
  line _ := .nil rfl
  apart h := absurd h List.not_mem_nil

theorem mem_lines_receive {call : Call α} {id : String} {visit : Visit α}
    (h : visit ∈ (office.receive call).lines id) :
    visit ∈ office.lines id ∨ id = call.id ∧ visit.number = office.lanes.taken + 1 := by
  by_cases hid : id = call.id
  · subst hid
    rw [Office.receive, lines_withLine_self] at h
    rcases List.mem_append.mp h with h | h
    · exact .inl h
    · rw [List.mem_singleton.mp h]
      exact .inr ⟨rfl, rfl⟩
  · rw [Office.receive, lines_withLine_of_ne hid] at h
    exact .inl h

theorem receive (h : office.Orderly) (call : Call α) : (office.receive call).Orderly := by
  constructor
  · intro id
    by_cases hid : id = call.id
    · subst hid
      rw [Office.receive, lines_withLine_self]
      exact (h.line call.id).take rfl
    · rw [Office.receive, lines_withLine_of_ne hid]
      refine (h.line id).congr (Nat.le_succ _) ?_ ?_
      · exact (Table.get?_insert ..).trans (if_neg hid)
      · intro visit hvisit
        have hle := (h.line id).number_le visit hvisit
        change visit.number ∈ (office.lanes.taken + 1) :: office.lanes.held ↔ _
        rw [List.mem_cons]
        exact or_iff_right (by omega)
  · intro id id' visit visit' hvisit hvisit' hnumber
    rcases mem_lines_receive hvisit with hold | ⟨rfl, hnew⟩
    · rcases mem_lines_receive hvisit' with hold' | ⟨rfl, hnew⟩
      · exact h.apart hold hold' hnumber
      · have hle := (h.line id).number_le visit hold
        omega
    · rcases mem_lines_receive hvisit' with hold' | ⟨rfl, -⟩
      · have hle := (h.line id').number_le visit' hold'
        omega
      · rfl

theorem mem_lines_withLine {id other : String} {front back : List (Visit α)} {visit v : Visit α}
    {stage : Stage α} {lanes : Lanes} {store : σ} (hline : office.lines id = front ++ visit :: back)
    (h : v ∈ (office.withLine id (front ++ { visit with stage } :: back) lanes store).lines other) :
    ∃ v' ∈ office.lines other, v'.number = v.number := by
  by_cases hid : other = id
  · subst hid
    rw [lines_withLine_self] at h
    rw [hline]
    rcases List.mem_append.mp h with h | h
    · exact ⟨v, List.mem_append_left _ h, rfl⟩
    · rcases List.mem_cons.mp h with rfl | h
      · exact ⟨visit, List.mem_append_right _ List.mem_cons_self, rfl⟩
      · exact ⟨v, List.mem_append_right _ (List.mem_cons_of_mem _ h), rfl⟩
  · rw [lines_withLine_of_ne hid] at h
    exact ⟨v, h, rfl⟩

theorem visited [Mergeable α] [Backend σ] (h : office.Orderly) {id : String}
    {front back : List (Visit α)} {visit : Visit α} {now : Instant} {stage : Stage α}
    {lanes : Lanes} {store : σ} (hline : office.lines id = front ++ visit :: back)
    (hnext : visit.Next office.lanes now office.store stage lanes store) :
    (office.withLine id (front ++ { visit with stage } :: back) lanes store).Orderly := by
  have hinLine := h.line id
  rw [hline] at hinLine
  have hmem : visit ∈ office.lines id := hline ▸ List.mem_append_right _ List.mem_cons_self
  obtain ⟨htaken, htails, hheld⟩ := hnext.frame
  constructor
  · intro other
    by_cases hid : other = id
    · subst hid
      rw [lines_withLine_self]
      exact hinLine.next hnext
    · rw [lines_withLine_of_ne hid]
      have hticket := ((h.line id).id_eq visit hmem).1
      refine (h.line other).congr htaken.ge (htails other (hticket ▸ hid)) fun v hv => ?_
      apply hheld
      intro hnumber
      exact hid (h.apart hv hmem hnumber)
  · intro other other' v v' hv hv' hnumber
    obtain ⟨w, hw, hnumber_w⟩ := mem_lines_withLine hline hv
    obtain ⟨w', hw', hnumber_w'⟩ := mem_lines_withLine hline hv'
    exact h.apart hw hw' (hnumber_w.trans (hnumber.trans hnumber_w'.symm))

theorem moved [Mergeable α] [Backend σ] {office' : Office α σ} (h : office.Orderly)
    (hmoved : office.Moved office') : office'.Orderly := by
  cases hmoved with
  | nothing => exact h
  | called call => exact h.receive call
  | visited hline hnext => exact h.visited hline hnext

end Orderly

/-- Visits stand in line at all times. -/
theorem orderly_run {σ : Type} [Mergeable α] [Backend σ] (store : σ) (moves : List (Move α)) :
    (({ store } : Office α σ).run moves).Orderly := by
  induction moves using List.reverseRecOn with
  | nil => exact .start store
  | append_singleton moves next ih =>
    rw [run_concat]
    exact ih.moved (moved _ next)

/-- The first call for an entity that has not left can take a step. -/
theorem Orderly.exists_next? {σ : Type} [Mergeable α] [Backend σ] {office : Office α σ}
    (h : office.Orderly) {id : String} {front back : List (Visit α)} {visit : Visit α}
    (hline : office.lines id = front ++ visit :: back)
    (hfront : ∀ earlier ∈ front, earlier.stage.hasLeft = true)
    (hvisit : visit.stage.hasLeft = false) (now : Instant) :
    ∃ stage lanes store,
      visit.next? office.lanes now office.store = some (stage, lanes, store) := by
  have hinLine := h.line id
  rw [hline] at hinLine
  exact Visit.exists_next? hvisit fun _ => hinLine.mayPass hfront

/-- A bound for the number of steps that the calls of a line have left. -/
def stepsLeft (line : List (Visit α)) : Nat := (line.map Visit.left).sum

theorem stepsLeft_replace_lt {front back : List (Visit α)} {visit visit' : Visit α}
    (h : visit'.left < visit.left) :
    stepsLeft (front ++ visit' :: back) < stepsLeft (front ++ visit :: back) := by
  simp only [stepsLeft, List.map_append, List.map_cons, List.sum_append, List.sum_cons]
  omega

/-- All calls for an entity that were made can come to their end. -/
theorem exists_run_hasLeft {σ : Type} [Mergeable α] [Backend σ] (store : σ) (moves : List (Move α))
    (id : String) : ∃ steps, made (moves ++ steps) = made moves
      ∧ ∀ visit ∈ (({ store } : Office α σ).run (moves ++ steps)).lines id,
        visit.stage.hasLeft = true := by
  generalize hn : stepsLeft ((({ store } : Office α σ).run moves).lines id) = n
  induction n using Nat.strong_induction_on generalizing moves with
  | h n ih =>
    cases hfirst : ((({ store } : Office α σ).run moves).lines id).find? (!·.stage.hasLeft) with
    | none =>
      refine ⟨[], by rw [List.append_nil], fun visit hvisit => ?_⟩
      rw [List.append_nil] at hvisit
      simpa using List.find?_eq_none.mp hfirst visit hvisit
    | some visit =>
      obtain ⟨hvisit, front, back, hline, hfront⟩ := List.find?_eq_some_iff_append.mp hfirst
      have horderly := orderly_run store moves
      obtain ⟨stage, lanes, store', hnext⟩ := horderly.exists_next? hline (by simpa using hfront)
        (by simpa using hvisit) .epoch
      -- It takes its step, and then fewer are left.
      have hget : ((({ store } : Office α σ).run moves).lines id)[front.length]? = some visit := by
        rw [hline, List.getElem?_append_right le_rfl, Nat.sub_self, List.getElem?_cons_zero]
      have hmove :
          (({ store } : Office α σ).run (moves ++ [.visit id front.length .epoch])).lines id
            = front ++ { visit with stage } :: back := by
        rw [run_concat, move, hget]
        dsimp only
        rw [hnext]
        dsimp only
        rw [lines_withLine_self, hline, List.set_append_right _ _ le_rfl, Nat.sub_self,
          List.set_cons_zero]
      have hlt : stepsLeft ((({ store } : Office α σ).run
          (moves ++ [.visit id front.length .epoch])).lines id) < n := by
        rw [hmove, ← hn, hline]
        exact stepsLeft_replace_lt (Visit.next_of_next? hnext).left_lt
      obtain ⟨steps, hmade, hleft⟩ := ih _ hlt (moves ++ [.visit id front.length .epoch]) rfl
      refine ⟨.visit id front.length .epoch :: steps, ?_, ?_⟩
      · rw [List.append_cons, hmade, made, List.filterMap_append]
        exact List.append_nil _
      · rw [List.append_cons]
        exact hleft

end FieldTelemetry.Store.Office
