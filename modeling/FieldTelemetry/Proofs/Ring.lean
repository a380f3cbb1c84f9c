import FieldTelemetry.Proofs.Json.Record
import FieldTelemetry.Ring
import Mathlib.Data.List.Induction

/-!
# Rings in vectors

A ring keeps its values in a vector that has room for as many as its capacity. A new value is put
in front of the others after the last one was taken out of a full vector, and nobody looks whether
there was room for it. In spite of this the values are at all times those of a list that is cut off
at the capacity, and no value is lost for want of room.

## Main definitions

* `Vectors`, `Vectors.Lawful`: vectors of a limited capacity
* `Ring.Op`, `Ring.run`, `Ring.runList`: what is done with a ring, and with a list
* `Vectors.run`: what is done with a ring in a vector
* `Vectors.Refines`: what is known of a ring in a vector

## Main results

* `Vectors.Lawful.items_act`: an operation does to a ring in a vector what it does to a list
* `Vectors.Lawful.refines`: all that is known of a ring in a vector
-/

namespace FieldTelemetry

open Text

/-! ## Vectors -/

/-- Vectors of a limited capacity. A value that finds no room comes back. -/
structure Vectors (α σ : Type) where
  /-- The values, first to last. -/
  items : σ → List α
  /-- The vector without values. -/
  empty : σ
  /-- There is no room left. -/
  isFull : σ → Bool
  /-- Takes out the last value. -/
  pop : σ → Option α × σ
  /-- Puts in a value at an index. -/
  insert : σ → (index : Nat) → α → Except α Unit × σ
  /-- Puts in a value behind the others. -/
  push : σ → α → Except α Unit × σ

/-- Vectors have room for as many values as their capacity. -/
structure Vectors.Lawful {α σ : Type} (vectors : Vectors α σ) (capacity : Nat) : Prop where
  /-- A vector never has more values than its capacity. -/
  length_items : ∀ s, (vectors.items s).length ≤ capacity
  /-- The empty vector has no values. -/
  items_empty : vectors.items vectors.empty = []
  /-- A vector is full when it has as many values as its capacity. -/
  isFull_iff : ∀ s, vectors.isFull s = true ↔ (vectors.items s).length = capacity
  /-- The last value is given and taken out, if there is one. -/
  pop : ∀ s, (vectors.pop s).1 = (vectors.items s).getLast?
    ∧ vectors.items (vectors.pop s).2 = (vectors.items s).dropLast
  /-- A value goes in at an index while there is room. -/
  insert_of_lt : ∀ s index value, index ≤ (vectors.items s).length →
    (vectors.items s).length < capacity → (vectors.insert s index value).1 = .ok ()
      ∧ vectors.items (vectors.insert s index value).2 = (vectors.items s).insertIdx index value
  /-- It comes back when there is none. -/
  insert_of_full : ∀ s index value, index ≤ (vectors.items s).length →
    (vectors.items s).length = capacity → vectors.insert s index value = (.error value, s)
  /-- A value goes in behind the others while there is room. -/
  push_of_lt : ∀ s value, (vectors.items s).length < capacity →
    (vectors.push s value).1 = .ok ()
      ∧ vectors.items (vectors.push s value).2 = vectors.items s ++ [value]
  /-- It comes back when there is none. -/
  push_of_full : ∀ s value, (vectors.items s).length = capacity →
    vectors.push s value = (.error value, s)

/-- Lists of a limited length as vectors. -/
def boundedLists (α : Type) (capacity : Nat) :
    Vectors α (Subtype fun items : List α => items.length ≤ capacity) where
  items s := s.val
  empty := ⟨[], Nat.zero_le _⟩
  isFull s := s.val.length = capacity
  pop s := (s.val.getLast?, ⟨s.val.dropLast, (List.dropLast_sublist _).length_le.trans s.property⟩)
  insert s index value :=
    if h : s.val.length < capacity then
      (.ok (), ⟨s.val.insertIdx index value, List.length_insertIdx_le_succ.trans h⟩)
    else (.error value, s)
  push s value :=
    if h : s.val.length < capacity then
      (.ok (), ⟨s.val ++ [value], List.length_append.le.trans h⟩)
    else (.error value, s)

theorem lawful_boundedLists (α : Type) (capacity : Nat) :
    (boundedLists α capacity).Lawful capacity where
  length_items s := s.property
  items_empty := rfl
  isFull_iff s := decide_eq_true_iff
  pop s := ⟨rfl, rfl⟩
  insert_of_lt s index value _ hlt := by
    have hinsert : (boundedLists α capacity).insert s index value = (.ok (), _) := dif_pos hlt
    rw [hinsert]
    exact ⟨rfl, rfl⟩
  insert_of_full s index value _ hfull := dif_neg (Nat.not_lt_of_le hfull.ge)
  push_of_lt s value hlt := by
    have hpush : (boundedLists α capacity).push s value = (.ok (), _) := dif_pos hlt
    rw [hpush]
    exact ⟨rfl, rfl⟩
  push_of_full s value hfull := dif_neg (Nat.not_lt_of_le hfull.ge)

/-! ## Operations -/

namespace Ring

/-- What is done with a ring. -/
inductive Op (α : Type)
  /-- A value is pushed. -/
  | push (value : α)
  /-- The ring is replaced by the one of a text, if it can be read. -/
  | load (text : Octets)
  /-- The ring is replaced by the first values of a list. -/
  | fill (values : List α)

variable {α : Type} {capacity : Nat}

/-- The values of a text, newest first. -/
def listed? (read : Json → Option α) (text : Octets) : Option (List α) := do
  (← Json.parse? text).items? read

/-- Values in JSON, newest first. -/
def toJson (write : α → Json) (values : List α) : Json := .array (values.map write)

/-- An operation on a list that is cut off at the capacity. -/
def actList (capacity : Nat) (read : Json → Option α) (values : List α) : Op α → List α
  | .push value => (value :: values).take capacity
  | .load text =>
    match listed? read text with
    | some loaded => loaded.take capacity
    | none => values
  | .fill filled => filled.take capacity

/-- Several operations on a list. -/
def runList (capacity : Nat) (read : Json → Option α) (values : List α) (ops : List (Op α)) :
    List α := ops.foldl (actList capacity read) values

/-- An operation on a ring. -/
def act (read : Json → Option α) (ring : Ring capacity α) : Op α → Ring capacity α
  | .push value => ring.push value
  | .load text =>
    match listed? read text with
    | some loaded => .ofList loaded
    | none => ring
  | .fill filled => .ofList filled

/-- Several operations on a ring. -/
def run (read : Json → Option α) (ring : Ring capacity α) (ops : List (Op α)) : Ring capacity α :=
  ops.foldl (act read) ring

theorem entries_act (read : Json → Option α) (ring : Ring capacity α) (op : Op α) :
    (ring.act read op).entries = actList capacity read ring.entries op := by
  cases op with
  | push value => rfl
  | load text =>
    rw [act, actList]
    cases listed? read text <;> rfl
  | fill filled => rfl

/-- A ring goes through the same operations as its list. -/
theorem entries_run (read : Json → Option α) (ring : Ring capacity α) (ops : List (Op α)) :
    (ring.run read ops).entries = runList capacity read ring.entries ops := by
  induction ops generalizing ring with
  | nil => rfl
  | cons op ops ih => rw [run, List.foldl_cons, ← run, ih, entries_act, runList, runList,
      List.foldl_cons]

/-- A value is read back from what is written for it. -/
def RoundTrips (read : Json → Option α) (write : α → Json) (value : α) : Prop :=
  read (write value) = some value ∧ (write value).Proper

variable {read : Json → Option α} {write : α → Json} {values : List α}

/-- Values are read back from their text, in lines or without white space. -/
theorem listed?_toJson (h : ∀ value ∈ values, RoundTrips read write value) {text : Octets}
    (htext : text = utf8 (toJson write values).compact ∨ text = utf8 (toJson write values).pretty) :
    listed? read text = some values := by
  have hproper : (toJson write values).Proper := by
    refine Json.proper_array fun json hjson => ?_
    obtain ⟨value, hmem, rfl⟩ := List.mem_map.mp hjson
    exact (h value hmem).2
  have hparse : Json.parse? text = some (toJson write values) := by
    rcases htext with rfl | rfl
    · exact Json.parse?_compact hproper
    · exact Json.parse?_pretty hproper
  have hread := Json.readAll?_map (f := id) fun value hmem => (h value hmem).1
  rw [List.map_id] at hread
  rw [listed?, hparse]
  exact hread

/-- What is beyond the capacity may be forgotten at once or with the next value. -/
theorem take_cons_take (value : α) (values : List α) :
    (value :: values.take capacity).take capacity = (value :: values).take capacity := by
  cases capacity with
  | zero => rfl
  | succ capacity =>
    rw [List.take_succ_cons, List.take_succ_cons, List.take_take,
      Nat.min_eq_left capacity.le_succ]

theorem entries_push_eq_take (ring : Ring capacity α) (value : α) {values : List α}
    (h : ring.entries = values.take capacity) :
    (ring.push value).entries = (value :: values).take capacity := by
  rw [entries_push, h, take_cons_take]

end Ring

/-! ## Rings in vectors -/

namespace Vectors

variable {α σ : Type} (vectors : Vectors α σ) (capacity : Nat)

/-- The last value is taken out of a full vector. -/
def room (s : σ) : σ := if vectors.isFull s then (vectors.pop s).2 else s

/-- A value is put in front of the others. Nobody looks whether there was room. -/
def pushOnto (s : σ) (value : α) : σ :=
  if capacity = 0 then s else (vectors.insert (vectors.room s) 0 value).2

/-- Values are put behind the others one by one. Nobody looks whether there was room. -/
def pushAll (s : σ) (values : List α) : σ :=
  values.foldl (fun s value => (vectors.push s value).2) s

/-- The vector of the first values of a list. -/
def fill (values : List α) : σ := vectors.pushAll vectors.empty (values.take capacity)

/-- An operation on a ring in a vector. -/
def act (read : Json → Option α) (s : σ) : Ring.Op α → σ
  | .push value => vectors.pushOnto capacity s value
  | .load text =>
    match Ring.listed? read text with
    | some loaded => vectors.fill capacity loaded
    | none => s
  | .fill filled => vectors.fill capacity filled

/-- Several operations on a ring in a vector. -/
def run (read : Json → Option α) (s : σ) (ops : List (Ring.Op α)) : σ :=
  ops.foldl (vectors.act capacity read) s

/-- What is known of a ring in a vector. -/
structure Refines (read : Json → Option α) (write : α → Json) (s : σ) : Prop where
  /-- The values are at all times those of a list that is cut off at the capacity. -/
  items_run : ∀ ops, vectors.items (vectors.run capacity read s ops)
    = Ring.runList capacity read (vectors.items s) ops
  /-- They are those of a ring without a vector. -/
  entries_run : ∀ (ring : Ring capacity α) ops, ring.entries = vectors.items s →
    vectors.items (vectors.run capacity read s ops) = (ring.run read ops).entries
  /-- A value that is put in front finds room. -/
  inserted : ∀ value, capacity ≠ 0 → (vectors.insert (vectors.room s) 0 value).1 = .ok ()
  /-- So does every value that is put behind the others. -/
  pushed : ∀ (values before after : List α) value,
    values.take capacity = before ++ value :: after →
    (vectors.push (vectors.pushAll vectors.empty before) value).1 = .ok ()
  /-- A text that cannot be read leaves the ring as it was. -/
  unread : ∀ text, Ring.listed? read text = none → vectors.act capacity read s (.load text) = s
  /-- The ring is read back from its text. -/
  restored : (∀ value ∈ vectors.items s, Ring.RoundTrips read write value) → ∀ other text,
    text = utf8 (Ring.toJson write (vectors.items s)).compact
      ∨ text = utf8 (Ring.toJson write (vectors.items s)).pretty →
    vectors.items (vectors.act capacity read other (.load text)) = vectors.items s
  /-- What a deeper ring has beyond the capacity does not matter when a value is pushed. -/
  pushed_deeper : ∀ text values value, Ring.listed? read text = some values →
    vectors.items (vectors.run capacity read s [.load text, .push value])
      = (value :: values).take capacity
  /-- The value may be pushed before or after the deeper ring is loaded. -/
  deeper_pushed : ∀ depth, capacity ≤ depth → ∀ (ring : Ring depth α) value,
    (∀ entry ∈ value :: ring.entries, Ring.RoundTrips read write entry) →
    vectors.items (vectors.run capacity read s
        [.load (utf8 (Ring.toJson write ring.entries).compact), .push value])
      = vectors.items (vectors.run capacity read s
        [.load (utf8 (Ring.toJson write (ring.push value).entries).compact)])

namespace Lawful

variable {vectors} {capacity} (h : vectors.Lawful capacity)

include h

/-- There is room for a value after the last one was taken out of a full vector. -/
theorem items_room (s : σ) :
    vectors.items (vectors.room s) = (vectors.items s).take (capacity - 1) := by
  have hle := h.length_items s
  unfold room
  split
  · rename_i hfull
    rw [(h.pop s).2, List.dropLast_eq_take, (h.isFull_iff s).mp hfull]
  · rename_i hroom
    have hne : (vectors.items s).length ≠ capacity := fun heq => hroom ((h.isFull_iff s).mpr heq)
    rw [List.take_of_length_le (by omega)]

theorem length_room_lt (hcapacity : capacity ≠ 0) (s : σ) :
    (vectors.items (vectors.room s)).length < capacity := by
  rw [h.items_room, List.length_take]
  omega

theorem insert_room (hcapacity : capacity ≠ 0) (s : σ) (value : α) :
    (vectors.insert (vectors.room s) 0 value).1 = .ok () :=
  (h.insert_of_lt _ 0 value (Nat.zero_le _) (h.length_room_lt hcapacity s)).1

/-- A value that is pushed comes in front of the others, which are cut off at the capacity. -/
theorem items_pushOnto (s : σ) (value : α) :
    vectors.items (vectors.pushOnto capacity s value)
      = (value :: vectors.items s).take capacity := by
  by_cases hcapacity : capacity = 0
  · have hnil : vectors.items s = [] :=
      List.eq_nil_of_length_eq_zero (Nat.le_zero.mp (hcapacity ▸ h.length_items s))
    rw [pushOnto, if_pos hcapacity, hnil, hcapacity, List.take_zero]
  · have hinsert := h.insert_of_lt _ 0 value (Nat.zero_le _) (h.length_room_lt hcapacity s)
    obtain ⟨less, rfl⟩ := Nat.exists_eq_succ_of_ne_zero hcapacity
    rw [pushOnto, if_neg hcapacity, hinsert.2, List.insertIdx_zero, h.items_room,
      List.take_succ_cons]
    rfl

/-- Values that fit are put behind the others. -/
theorem items_pushAll {values : List α} {s : σ}
    (hfits : (vectors.items s).length + values.length ≤ capacity) :
    vectors.items (vectors.pushAll s values) = vectors.items s ++ values := by
  induction values generalizing s with
  | nil => rw [List.append_nil, pushAll, List.foldl_nil]
  | cons value values ih =>
    rw [List.length_cons] at hfits
    have hpush := (h.push_of_lt s value (by omega)).2
    have hrest : (vectors.items (vectors.push s value).2).length + values.length ≤ capacity := by
      rw [hpush, List.length_append, List.length_singleton]
      omega
    rw [pushAll, List.foldl_cons, ← pushAll, ih hrest, hpush, List.append_assoc,
      List.singleton_append]

theorem items_fill (values : List α) :
    vectors.items (vectors.fill capacity values) = values.take capacity := by
  have hfits : (vectors.items vectors.empty).length + (values.take capacity).length ≤ capacity := by
    rw [h.items_empty, List.length_nil, Nat.zero_add]
    exact List.length_take_le ..
  rw [fill, h.items_pushAll hfits, h.items_empty, List.nil_append]

/-- No value of a list is dropped before the capacity is reached. -/
theorem push_pushAll {values before after : List α} {value : α}
    (hsplit : values.take capacity = before ++ value :: after) :
    (vectors.push (vectors.pushAll vectors.empty before) value).1 = .ok () := by
  have hlength : (before ++ value :: after).length ≤ capacity := by
    rw [← hsplit]
    exact List.length_take_le ..
  rw [List.length_append, List.length_cons] at hlength
  have hbefore : vectors.items (vectors.pushAll vectors.empty before) = before := by
    rw [h.items_pushAll (by rw [h.items_empty, List.length_nil]; omega), h.items_empty,
      List.nil_append]
  exact (h.push_of_lt _ value (by rw [hbefore]; omega)).1

/-- An operation does to a ring in a vector what it does to a list. -/
theorem items_act (read : Json → Option α) (s : σ) (op : Ring.Op α) :
    vectors.items (vectors.act capacity read s op)
      = Ring.actList capacity read (vectors.items s) op := by
  cases op with
  | push value => exact h.items_pushOnto s value
  | load text =>
    rw [act, Ring.actList]
    cases Ring.listed? read text with
    | none => rfl
    | some loaded => exact h.items_fill loaded
  | fill filled => exact h.items_fill filled

/-- So do several operations. -/
theorem items_run (read : Json → Option α) (s : σ) (ops : List (Ring.Op α)) :
    vectors.items (vectors.run capacity read s ops)
      = Ring.runList capacity read (vectors.items s) ops := by
  induction ops generalizing s with
  | nil => rfl
  | cons op ops ih =>
    rw [run, List.foldl_cons, ← run, ih, h.items_act, Ring.runList, Ring.runList, List.foldl_cons]

theorem items_load {read : Json → Option α} {text : Octets} {values : List α}
    (hread : Ring.listed? read text = some values) (s : σ) :
    vectors.items (vectors.act capacity read s (.load text)) = values.take capacity := by
  rw [h.items_act, Ring.actList, hread]

theorem items_load_push {read : Json → Option α} {text : Octets} {values : List α}
    (hread : Ring.listed? read text = some values) (s : σ) (value : α) :
    vectors.items (vectors.run capacity read s [.load text, .push value])
      = (value :: values).take capacity := by
  rw [run, List.foldl_cons, List.foldl_cons, List.foldl_nil, h.items_act, Ring.actList,
    h.items_load hread, Ring.take_cons_take]

/-- All that is known of a ring in a vector. -/
theorem refines (read : Json → Option α) (write : α → Json) (s : σ) :
    vectors.Refines capacity read write s where
  items_run ops := h.items_run read s ops
  entries_run ring ops hentries := by rw [h.items_run, ring.entries_run, hentries]
  inserted value hcapacity := h.insert_room hcapacity s value
  pushed values before after value hsplit := h.push_pushAll hsplit
  unread text hread := by rw [act, hread]
  restored hround other text htext := by
    rw [h.items_load (Ring.listed?_toJson hround htext), List.take_of_length_le (h.length_items s)]
  pushed_deeper text values value hread := h.items_load_push hread s value
  deeper_pushed depth hdepth ring value hround := by
    have hring := Ring.listed?_toJson
      (fun entry hmem => hround entry (List.mem_cons_of_mem _ hmem)) (.inl rfl)
    have hround' : ∀ entry ∈ (ring.push value).entries, Ring.RoundTrips read write entry :=
      fun entry hmem => hround entry (List.mem_of_mem_take hmem)
    have hpushed := Ring.listed?_toJson hround' (.inl rfl)
    rw [h.items_load_push hring, run, List.foldl_cons, List.foldl_nil, h.items_load hpushed,
      Ring.entries_push, List.take_take, Nat.min_eq_left hdepth]

end Lawful

/-- A text with too many values is cut off, and one that ends early changes nothing. -/
theorem refines_pair :
    (boundedLists UInt32 2).Lawful 2
      ∧ ∃ s : Subtype fun items : List UInt32 => items.length ≤ 2, s.val = [4]
        ∧ (boundedLists UInt32 2).Refines 2 Json.uint32? Json.ofUInt32 s
        ∧ (boundedLists UInt32 2).items ((boundedLists UInt32 2).run 2 Json.uint32? s
          [.push 1, .load (utf8 "[9,8,7]"), .load (utf8 "[9,"), .push 6]) = [6, 9] := by
  have hlawful := lawful_boundedLists UInt32 2
  have hrefines := hlawful.refines Json.uint32? Json.ofUInt32 ⟨[4], by decide⟩
  exact ⟨hlawful, _, rfl, hrefines, (hrefines.items_run _).trans rfl⟩

end Vectors

end FieldTelemetry
