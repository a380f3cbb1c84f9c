import FieldTelemetry.Proofs.Json.Scalar
import Mathlib.Data.List.ReduceOption

/-!
# Records read back

A record is read back from the object that is written for it, when its numbers survive and nothing
of it is left unwritten.

## Main definitions

* `KeptSlot`, `Fits`: what a slot gives back, and what may stand in it
* `Lossless`: the types of records that are read back

## Main results

* `memberSlots?_written`: the values of slots are found among the members written for them
* `record?_ofRecord`: a record is read back from its object
-/

namespace FieldTelemetry.Json

/-! ## Slots among members -/

/-- The members of an object that are written for slots with a value. -/
def written (form : List Slot) (values : List (Option Json)) : List (Option String × Json) :=
  (present form values).map fun (key, value) => (some key, value)

/-- The members with the key of a slot. -/
def membersOf (slot : Slot) (members : List (Option String × Json)) :
    List (Option String × Json) :=
  members.filter fun (key, _) => key == some slot.name

theorem slot?_eq (members : List (Option String × Json)) (slot : Slot) :
    slot? members slot = match membersOf slot members with
      | [] => some none
      | [(_, value)] => some (some value)
      | _ => none := rfl

theorem membersOf_written {slot : Slot} {form : List Slot} (values : List (Option Json))
    (h : slot.name ∉ form.map Slot.name) : membersOf slot (written form values) = [] := by
  induction form generalizing values with
  | nil => cases values <;> rfl
  | cons other form ih =>
    rw [List.map_cons, List.mem_cons, not_or] at h
    cases values with
    | nil => rfl
    | cons value values =>
      have hrest := ih values h.2
      cases value with
      | none => exact hrest
      | some value =>
        -- The slot in front has another name.
        have hne : ((some other.name : Option String) == some slot.name) = false := by
          rw [beq_eq_false_iff_ne]
          intro heq
          exact h.1 (Option.some.inj heq).symm
        rw [written, present, List.map_cons, membersOf, List.filter_cons_of_neg (by simp [hne])]
        exact hrest

theorem mapM_written (form : List Slot) (values : List (Option Json))
    (before : List (Option String × Json)) (hnodup : (form.map Slot.name).Nodup)
    (hlength : values.length = form.length)
    (hbefore : ∀ slot ∈ form, membersOf slot before = []) :
    form.mapM (slot? (before ++ written form values)) = some values := by
  induction form generalizing values before with
  | nil =>
    rw [List.length_nil, List.length_eq_zero_iff] at hlength
    subst hlength
    rfl
  | cons slot form ih =>
    obtain ⟨value, values, rfl⟩ : ∃ value rest, values = value :: rest :=
      List.exists_cons_of_length_eq_add_one hlength
    rw [List.map_cons, List.nodup_cons] at hnodup
    rw [List.length_cons, List.length_cons, Nat.add_right_cancel_iff] at hlength
    -- No later slot has the name of the first one, nor have the members before.
    have hlater := membersOf_written values hnodup.1
    have hother : ∀ other ∈ form, slot.name ≠ other.name := by
      intro other hmem heq
      exact hnodup.1 (heq ▸ List.mem_map_of_mem hmem)
    -- A slot without a value is not written, and is found to be absent.
    cases value with
    | none =>
      have hwritten : written (slot :: form) (none :: values) = written form values := rfl
      have hrest := ih values before hnodup.2 hlength
        fun other hmem => hbefore other (List.mem_cons_of_mem _ hmem)
      have hslot : slot? (before ++ written form values) slot = some none := by
        rw [slot?_eq, membersOf, List.filter_append, ← membersOf, ← membersOf,
          hbefore slot List.mem_cons_self, hlater]
        rfl
      rw [List.mapM_cons, hwritten, hslot, hrest]
      rfl
    | some value =>
      have hwritten : written (slot :: form) (some value :: values)
          = [(some slot.name, value)] ++ written form values := rfl
      have hself : membersOf slot [(some slot.name, value)] = [(some slot.name, value)] := by
        simp [membersOf]
      have hrest := ih values (before ++ [(some slot.name, value)]) hnodup.2 hlength ?_
      · have hslot : slot? (before ++ ([(some slot.name, value)] ++ written form values)) slot
            = some (some value) := by
          rw [slot?_eq, membersOf, List.filter_append, List.filter_append, ← membersOf,
            ← membersOf, ← membersOf, hbefore slot List.mem_cons_self, hself, hlater]
          rfl
        rw [List.append_assoc] at hrest
        rw [List.mapM_cons, hwritten, hslot, hrest]
        rfl
      · intro other hmem
        rw [membersOf, List.filter_append, ← membersOf, ← membersOf,
          hbefore other (List.mem_cons_of_mem _ hmem), List.nil_append]
        simp [membersOf, hother other hmem]

/-- The values of slots are found among the members written for them. -/
theorem memberSlots?_written {form : List Slot} {values : List (Option Json)}
    (hnodup : (form.map Slot.name).Nodup) (hlength : values.length = form.length) :
    memberSlots? form (written form values) = some values := by
  have hkeys : (written form values).all (fun (key, _) => key.isSome) = true := by
    simp [written]
  have hmap := mapM_written form values [] hnodup hlength fun _ _ => rfl
  rw [List.nil_append] at hmap
  rw [memberSlots?, if_pos hkeys, hmap]

/-! ## Lossless records -/

/-- What a slot holds is proper and can be taken out of a text where arrays and objects may nest
to a depth. -/
def Fits (height : Nat) (value : Option Json) : Prop :=
  ∀ json ∈ value, json.Proper ∧ ∀ depth, height ≤ depth → json.plain depth = true

/-- An optional value that its slot gives back. -/
structure KeptSlot {α : Type} (read : Json → Option α) (write : α → Json) (height : Nat)
    (x : Option α) : Prop where
  /-- Absence is not read as a value. -/
  read_null : read .null = none
  /-- A value is kept. -/
  kept : ∀ a ∈ x, Kept read write height a

namespace KeptSlot

variable {α : Type} {read : Json → Option α} {write : α → Json} {height : Nat} {x : Option α}

theorem optional? (h : KeptSlot read write height x) : optional? read (x.map write) = some x :=
  optional?_map h.read_null x h.kept

theorem fits (h : KeptSlot read write height x) {high : Nat} (hle : height ≤ high) :
    Fits high (x.map write) := by
  intro json hjson
  rw [Option.mem_map] at hjson
  obtain ⟨a, ha, rfl⟩ := hjson
  exact ⟨(h.kept a ha).proper, fun depth hdepth => (h.kept a ha).plain depth (hle.trans hdepth)⟩

end KeptSlot

theorem Kept.fits {α : Type} {read : Json → Option α} {write : α → Json} {height : Nat} {a : α}
    (h : Kept read write height a) {high : Nat} (hle : height ≤ high) :
    Fits high (some (write a)) := by
  rintro json ⟨⟩
  exact ⟨h.proper, fun depth hdepth => h.plain depth (hle.trans hdepth)⟩

theorem keptSlot_uint32 (x : Option UInt32) : KeptSlot uint32? ofUInt32 0 x :=
  ⟨rfl, fun n _ => kept_uint32 n⟩

theorem keptSlot_uint64 (x : Option UInt64) : KeptSlot uint64? ofUInt64 0 x :=
  ⟨rfl, fun n _ => kept_uint64 n⟩

theorem keptSlot_int32 (x : Option Int32) : KeptSlot int32? ofInt32 0 x :=
  ⟨rfl, fun n _ => kept_int32 n⟩

theorem keptSlot_text (x : Option String) : KeptSlot text? ofString 0 x :=
  ⟨rfl, fun text _ => kept_text text⟩

theorem keptSlot_instant (x : Option Time.Instant) : KeptSlot instant? ofInstant 0 x :=
  ⟨rfl, fun a _ => kept_instant a⟩

/-- An optional number among numbers that survive is kept. -/
theorem keptSlot_single {numbers : List (Option Binary32)}
    (h : ∀ n ∈ numbers.reduceOption, n.Survives) {x : Option Binary32} (hx : x ∈ numbers) :
    KeptSlot single? ofSingle 0 x := by
  refine ⟨rfl, ?_⟩
  rintro n ⟨⟩
  exact kept_single (h n (List.reduceOption_mem_iff.mpr hx))

/-! ## Arrays -/

section Arrays

variable {α β : Type} {read : Json → Option β} {write : α → Json} {items : List α}

/-- The items of an array are read when each of them is. -/
theorem readAll?_map {f : α → β} (h : ∀ a ∈ items, read (write a) = some (f a)) :
    readAll? read (items.map write) = some (items.map f) := by
  induction items with
  | nil => rfl
  | cons a items ih =>
    rw [List.map_cons, readAll?, h a List.mem_cons_self,
      ih fun b hb => h b (List.mem_cons_of_mem _ hb)]
    rfl

theorem mem_of_readAll? {values : List Json} {items : List β}
    (h : readAll? read values = some items) {a : β} (ha : a ∈ items) :
    ∃ value ∈ values, read value = some a := by
  induction values generalizing items with
  | nil =>
    cases h
    cases ha
  | cons value values ih =>
    simp only [readAll?, Option.bind_eq_bind, Option.bind_eq_some_iff] at h
    obtain ⟨first, hfirst, rest, hrest, ⟨⟩⟩ := h
    -- The item is the first one, or it is read from the rest.
    rcases List.mem_cons.mp ha with rfl | ha
    · exact ⟨value, List.mem_cons_self, hfirst⟩
    · obtain ⟨other, hmem, hread⟩ := ih hrest ha
      exact ⟨other, List.mem_cons_of_mem _ hmem, hread⟩

theorem plainItems_map {depth : Nat} (h : ∀ a ∈ items, (write a).plain depth = true) :
    plainItems depth (items.map write) = true := by
  induction items with
  | nil => rfl
  | cons a items ih =>
    rw [List.map_cons, plainItems, h a List.mem_cons_self,
      ih fun b hb => h b (List.mem_cons_of_mem _ hb)]
    rfl

/-- An array fits when each of its items does. -/
theorem fits_items {height : Nat} (h : ∀ a ∈ items, Fits height (some (write a))) :
    Fits (height + 1) (some (.array (items.map write))) := by
  rintro json ⟨⟩
  constructor
  · apply proper_array
    intro json hjson
    obtain ⟨a, ha, rfl⟩ := List.mem_map.mp hjson
    exact (h a ha _ rfl).1
  · intro depth hdepth
    obtain ⟨inner, rfl⟩ := Nat.exists_eq_add_of_le' hdepth
    exact plainItems_map fun a ha => (h a ha _ rfl).2 _ (Nat.le_add_left ..)

/-- An array is kept when each of its items is. -/
theorem kept_items {read : Json → Option α} {height : Nat}
    (h : ∀ a ∈ items, Kept read write height a) :
    Kept (items? read) (fun items => .array (items.map write)) (height + 1) items := by
  have hfits := fits_items fun a ha => (h a ha).fits le_rfl
  refine ⟨?_, (hfits _ rfl).1, (hfits _ rfl).2⟩
  have hread := readAll?_map (f := id) fun a ha => (h a ha).read_write
  rwa [List.map_id] at hread

end Arrays

theorem ofRecord_eq {α : Type} [Record α] (x : α) :
    ofRecord x = .object (written (Record.form α) (Record.values x)) := rfl

/-- The types of records that are read back. -/
class Lossless (α : Type) [Record α] where
  /-- The numbers of a record. -/
  numbers : α → List Binary32
  /-- Everything of a record is written. -/
  Complete : α → Prop
  /-- Arrays and objects nest to this depth in the values of a record. -/
  height : Nat
  /-- No two slots have the same name. -/
  nodup : ((Record.form α).map Slot.name).Nodup
  /-- Every slot gets a value or nothing. -/
  length_values : ∀ x : α, (Record.values x).length = (Record.form α).length
  /-- The values can be written and taken out of their text. -/
  fits : ∀ x : α, (∀ n ∈ numbers x, n.Survives) → Complete x →
    ∀ value ∈ Record.values x, Fits height value
  /-- The values are read back. -/
  ofValues?_values : ∀ x : α, (∀ n ∈ numbers x, n.Survives) → Complete x →
    Record.ofValues? (Record.values x) = some x
  /-- What has been read was all written. -/
  complete_of_ofValues? : ∀ (values : List (Option Json)) (x : α),
    Record.ofValues? values = some x → Complete x

namespace Lossless

variable {α : Type} [Record α] [Lossless α]

/-- The numbers of an optional record. -/
def optionNumbers (x : Option α) : List Binary32 := x.elim [] numbers

theorem mem_optionNumbers {x : Option α} {n : Binary32} :
    n ∈ optionNumbers x ↔ ∃ a ∈ x, n ∈ numbers a := by
  cases x <;> simp [optionNumbers]

end Lossless

open Lossless

section Records

variable {α : Type} [Record α] [Lossless α] {x : α}

/-- A record is read back from its object. -/
theorem record?_ofRecord (h : ∀ n ∈ numbers x, n.Survives) (hcomplete : Complete x) :
    record? (ofRecord x) = some x := by
  have hslots : slots? (Record.form α) (ofRecord x) = some (Record.values x) := by
    rw [ofRecord_eq, slots?]
    exact memberSlots?_written (nodup (α := α)) (length_values x)
  rw [record?, hslots]
  exact ofValues?_values x h hcomplete

/-- What has been read from a value was all written. -/
theorem complete_of_record? {value : Json} (h : record? value = some x) : Complete x := by
  rw [record?, Option.bind_eq_bind, Option.bind_eq_some_iff] at h
  obtain ⟨values, -, hvalues⟩ := h
  exact complete_of_ofValues? values x hvalues

theorem mem_written {form : List Slot} {values : List (Option Json)}
    {member : Option String × Json} (h : member ∈ written form values) :
    some member.2 ∈ values ∧ member.1.isSome := by
  rw [written, List.mem_map] at h
  obtain ⟨⟨key, json⟩, hmem, rfl⟩ := h
  refine ⟨?_, rfl⟩
  -- The members stand for the slots that have a value, in their order.
  fun_induction present form values with
  | case1 slot form value values ih =>
    rw [List.mem_cons] at hmem
    rcases hmem with hhead | htail
    · cases hhead
      exact List.mem_cons_self
    · exact List.mem_cons_of_mem _ (ih htail)
  | case2 slot form values ih => exact List.mem_cons_of_mem _ (ih hmem)
  | case3 => cases hmem

/-- Members can be taken out of their text if their values can. -/
theorem plainMembers_iff {depth : Nat} {members : List (Option String × Json)} :
    plainMembers depth members = true
      ↔ ∀ member ∈ members, member.1.isSome ∧ member.2.plain depth = true := by
  induction members with
  | nil => simp [plainMembers]
  | cons member members ih =>
    obtain ⟨key, value⟩ := member
    simp [plainMembers, ih, and_assoc]

theorem properMembers_iff {members : List (Option String × Json)} :
    ProperMembers members ↔ ∀ member ∈ members, member.2.Proper := by
  induction members with
  | nil => simp [ProperMembers]
  | cons member members ih =>
    obtain ⟨key, value⟩ := member
    simp [ProperMembers, ih]

/-- The object of values that fit is proper, and nests one deeper than they do. -/
theorem fits_object {height : Nat} (form : List Slot) {values : List (Option Json)}
    (h : ∀ value ∈ values, Fits height value) :
    Fits (height + 1) (some (.object (written form values))) := by
  rintro json ⟨⟩
  -- What holds of values holds of the members that are written.
  have hmember : ∀ member ∈ written form values, member.1.isSome ∧ member.2.Proper
      ∧ ∀ depth, height ≤ depth → member.2.plain depth = true := by
    intro member hmem
    obtain ⟨hvalue, hkey⟩ := mem_written hmem
    exact ⟨hkey, h _ hvalue member.2 rfl⟩
  constructor
  · rw [Proper, properMembers_iff]
    exact fun member hmem => (hmember member hmem).2.1
  · intro depth hdepth
    obtain ⟨inner, rfl⟩ := Nat.exists_eq_add_of_le' hdepth
    show plainMembers (inner + height) _ = true
    rw [plainMembers_iff]
    intro member hmem
    exact ⟨(hmember member hmem).1, (hmember member hmem).2.2 _ (Nat.le_add_left ..)⟩

theorem kept_record (h : ∀ n ∈ numbers x, n.Survives) (hcomplete : Complete x) :
    Kept record? ofRecord (height α + 1) x := by
  have hfits := fits_object (Record.form α) (fits x h hcomplete) (ofRecord x) rfl
  exact ⟨record?_ofRecord h hcomplete, hfits.1, hfits.2⟩

theorem keptSlot_record {x : Option α} (h : ∀ n ∈ optionNumbers x, n.Survives)
    (hcomplete : ∀ a ∈ x, Complete a) : KeptSlot record? ofRecord (height α + 1) x := by
  refine ⟨rfl, ?_⟩
  intro a ha
  refine kept_record (fun n hn => h n ?_) (hcomplete a ha)
  exact mem_optionNumbers.mpr ⟨a, ha, hn⟩

end Records

end FieldTelemetry.Json
