import FieldTelemetry.Proofs.Json.Record
import FieldTelemetry.Proofs.Record.Leaves

/-!
# The algebra of overlays

A record is given by its fields, by which of its groups are present, and by a mark that no update
changes. What an update does to each of these is simple, and so overlays are associative, and
updates that agree on the fields that they share may change places.

## Main definitions

* `Json.at?`: the part of a value that a path of keys leads to
* `Flat`: the types whose values are given by their fields
* `Layered`: the types whose values are given by fields, groups and a mark
* `Agree`: updates that have no field with different leaves

## Main results

* `overlay_assoc`, `overlay_default`, `overlay_right_comm`: the laws of overlays
* `Flat` for the groups of a record, `Layered` for `SensorRecord`
-/

namespace FieldTelemetry

open Overlay (overlay)

/-! ## Written fields -/

namespace Json

/-- The part of an object with a key. -/
def member? (name : String) : Json → Option Json
  | .object members => (slot? members ⟨name, false⟩).join
  | _ => none

/-- The part of a value that a path of keys leads to. -/
def at? : (path : List String) → Json → Option Json
  | [], value => some value
  | name :: path, value => (value.member? name).bind (at? path)

theorem eq_some_of_mapM {α β : Type} {f : α → Option β} {xs : List α} {ys : List β}
    (h : xs.mapM f = some ys) : ∀ p ∈ xs.zip ys, f p.1 = some p.2 := by
  induction xs generalizing ys with
  | nil => rintro p hp; cases hp
  | cons x xs ih =>
    rw [List.mapM_cons] at h
    simp only [Option.bind_eq_bind, Option.bind_eq_some_iff, Option.pure_def, Option.some_inj] at h
    obtain ⟨y, hy, ys, hys, rfl⟩ := h
    rw [List.zip_cons_cons, List.forall_mem_cons]
    exact ⟨hy, ih hys⟩

/-- What a record puts into a slot is found under the name of the slot. -/
theorem member?_ofRecord {α : Type} [Record α] {x : α}
    (hnodup : ((Record.form α).map Slot.name).Nodup)
    (hlength : (Record.values x).length = (Record.form α).length) :
    ∀ p ∈ ((Record.form α).map Slot.name).zip (Record.values x),
      (ofRecord x).member? p.1 = p.2 := by
  have hslots := mapM_written (Record.form α) (Record.values x) [] hnodup hlength fun _ _ => rfl
  rw [List.zip_map_left, List.forall_mem_map]
  intro p hp
  exact congrArg Option.join (eq_some_of_mapM hslots p hp)

end Json

/-- How a leaf is written. -/
def Leaf.json : Leaf → Json
  | .number x => Json.ofSingle x
  | .signed x => Json.ofInt32 x
  | .word x => Json.ofUInt32 x
  | .longWord x => Json.ofUInt64 x
  | .text x => Json.ofString x
  | .instant x => Json.ofInstant x
  | .pipeline x => Json.ofRecord x
  | .queue x => Json.ofRecord x

/-! ## Values given by their fields -/

/-- The types whose values are given by their fields, which are the slots that they are written
in. -/
class Flat (α : Type) [Overlay α] [Json.Record α] [Inhabited α] [Fielded α] : Prop where
  /-- The slots have different names. -/
  nodup : ((Json.Record.form α).map Json.Slot.name).Nodup := by decide
  /-- There is a slot for every field. -/
  length_form : (Json.Record.form α).length = (Fielded.fields (α := α)).length := by rfl
  /-- A field is written in its slot. -/
  values_eq : ∀ x : α, Json.Record.values x = fields.map fun field => (field x).map Leaf.json
  /-- The fields hold nothing when nothing is known. -/
  blank : ∀ field ∈ fields, field (default : α) = none := by decide
  /-- Values with the same fields are the same. -/
  ext : ∀ {x y : α}, (∀ field ∈ fields, field x = field y) → x = y

section Flat

variable {α : Type} [Overlay α] [Json.Record α] [Inhabited α] [Fielded α] [Flat α]

/-- The fields with the names of the slots that they are written in. -/
def flatNames (α : Type) [Overlay α] [Json.Record α] [Fielded α] :
    List (String × (α → Option Leaf)) :=
  ((Json.Record.form α).map Json.Slot.name).zip fields

theorem map_flatNames : (flatNames α).map Prod.snd = fields := by
  refine List.map_snd_zip ?_
  rw [List.length_map, Flat.length_form]

/-- A field is written under its name. -/
theorem member?_flatNames : ∀ p ∈ flatNames α, ∀ x : α,
    (Json.ofRecord x).member? p.1 = (p.2 x).map Leaf.json := by
  intro p hp x
  have hlength : (Json.Record.values x).length = (Json.Record.form α).length := by
    rw [Flat.values_eq, List.length_map, Flat.length_form]
  have hall := Json.member?_ofRecord Flat.nodup hlength
  rw [Flat.values_eq, List.zip_map_right, List.forall_mem_map] at hall
  exact hall p hp

end Flat

instance : Flat Location where
  values_eq x := by simp [Json.Record.values, fields, Leaf.json, Function.comp_def]
  ext {x y} h := by
    cases x
    cases y
    simpa [fields, Option.map_inj_right] using h

instance : Flat Environment where
  values_eq x := by simp [Json.Record.values, fields, Leaf.json, Function.comp_def]
  ext {x y} h := by
    cases x
    cases y
    simpa [fields, Option.map_inj_right] using h

instance : Flat Battery where
  values_eq x := by simp [Json.Record.values, fields, Leaf.json, Function.comp_def]
  ext {x y} h := by
    cases x
    cases y
    simpa [fields, Option.map_inj_right] using h

instance : Flat Geiger where
  values_eq x := by simp [Json.Record.values, fields, Leaf.json, Function.comp_def]
  ext {x y} h := by
    cases x
    cases y
    simpa [fields, Option.map_inj_right] using h

instance : Flat Particulate where
  values_eq x := by simp [Json.Record.values, fields, Leaf.json, Function.comp_def]
  ext {x y} h := by
    cases x
    cases y
    simpa [fields, Option.map_inj_right] using h

instance : Flat Reception where
  values_eq x := by simp [Json.Record.values, fields, Leaf.json, Function.comp_def]
  ext {x y} h := by
    cases x
    cases y
    simpa [fields, Option.map_inj_right] using h

instance : Flat ServiceInfo where
  values_eq x := by simp [Json.Record.values, fields, Leaf.json, Function.comp_def]
  ext {x y} h := by
    cases x
    cases y
    simpa [fields, Option.map_inj_right] using h

/-! ## Values given by fields, groups and a mark -/

/-- The types whose values are given by their fields, by which of their groups are present, and by a
mark that no update changes. -/
class Layered (α : Type) [Overlay α] [Json.Record α] [Inhabited α] [Fielded α] where
  /-- The fields with the paths of keys under which they are written. -/
  named : List (List String × (α → Option Leaf))
  /-- No field is missing. -/
  map_named : named.map Prod.snd = fields
  /-- A field is written under its path. -/
  at?_named : ∀ p ∈ named, ∀ x : α, (Json.ofRecord x).at? p.1 = (p.2 x).map Leaf.json
  /-- The groups with the keys under which they are written. -/
  groups : List (String × (α → Bool))
  /-- A group is written when it is present. -/
  member?_groups : ∀ p ∈ groups, ∀ x : α, ((Json.ofRecord x).member? p.1).isSome = p.2 x
  /-- What is not written. -/
  mark : α → Bool
  /-- A group is present when it is in the state or in the update. -/
  group_overlay : ∀ p ∈ groups, ∀ current update : α,
    p.2 (overlay current update) = (p.2 current || p.2 update)
  /-- The mark is that of the state. -/
  mark_overlay : ∀ current update : α, mark (overlay current update) = mark current
  /-- The fields hold nothing when nothing is known. -/
  field_blank : ∀ field ∈ fields, field (default : α) = none
  /-- No group is present when nothing is known. -/
  group_blank : ∀ p ∈ groups, p.2 (default : α) = false
  /-- There is nothing else in a value. -/
  eq_of_fields : ∀ {x y : α}, (∀ field ∈ fields, field x = field y) →
    (∀ p ∈ groups, p.2 x = p.2 y) → mark x = mark y → x = y

export Layered (named groups mark group_overlay mark_overlay field_blank group_blank eq_of_fields)

theorem Json.at?_singleton (name : String) (value : Json) : value.at? [name] = value.member? name :=
  Option.bind_fun_some _

instance {α : Type} [Overlay α] [Json.Record α] [Inhabited α] [Fielded α] [Flat α] : Layered α where
  named := (flatNames α).map fun p => ([p.1], p.2)
  map_named := by
    rw [List.map_map]
    exact map_flatNames
  at?_named := by
    rw [List.forall_mem_map]
    intro p hp x
    rw [Json.at?_singleton]
    exact member?_flatNames p hp x
  groups := []
  member?_groups := nofun
  mark _ := false
  group_overlay := nofun
  mark_overlay _ _ := rfl
  field_blank := Flat.blank
  group_blank := nofun
  eq_of_fields h _ _ := Flat.ext h

/-! ### Groups of a record -/

section Groups

variable {α β : Type} [Overlay β]

theorem isSome_overlayGroup (current update : Option β) :
    (overlayGroup current update).isSome = (current.isSome || update.isSome) := by
  cases current <;> cases update <;> rfl

variable [Json.Record β] [Inhabited β] [Fielded β] [Flat β]

/-- The fields of an optional group with the paths under which they are written. -/
def groupNames (name : String) (group : α → Option β) : List (List String × (α → Option Leaf)) :=
  (flatNames β).map fun p => ([name, p.1], fun x => (group x).bind p.2)

theorem map_groupNames [Overlay α] (name : String) (group : α → Option β) :
    (groupNames name group).map Prod.snd = groupFields group := by
  rw [groupNames, groupFields, ← map_flatNames, List.map_map, List.map_map]
  rfl

theorem at?_groupNames [Json.Record α] {name : String} {group : α → Option β}
    (hmember : ∀ x, (Json.ofRecord x).member? name = (group x).map Json.ofRecord) :
    ∀ p ∈ groupNames name group, ∀ x : α, (Json.ofRecord x).at? p.1 = (p.2 x).map Leaf.json := by
  rw [groupNames, List.forall_mem_map]
  intro p hp x
  dsimp only
  rw [Json.at?, hmember]
  cases group x with
  | none => rfl
  | some inner =>
    rw [Option.map_some, Option.bind_some, Option.bind_some, Json.at?_singleton]
    exact member?_flatNames p hp inner

/-- Groups with the same fields are the same when both are there or both are not. -/
theorem eq_of_groupFields [Overlay α] {group : α → Option β} {x y : α}
    (hfields : ∀ field ∈ groupFields group, field x = field y)
    (hpresent : (group x).isSome = (group y).isSome) : group x = group y := by
  rw [groupFields, List.forall_mem_map] at hfields
  cases hx : group x with
  | none =>
    rw [hx] at hpresent
    exact (Option.not_isSome_iff_eq_none.mp (by simp [← hpresent])).symm
  | some a =>
    rw [hx] at hpresent
    obtain ⟨b, hy⟩ := Option.isSome_iff_exists.mp hpresent.symm
    rw [hy, Option.some_inj]
    refine Flat.ext fun field hfield => ?_
    have heq := hfields field hfield
    dsimp only at heq
    rwa [hx, hy] at heq

end Groups

namespace SensorRecord

/-- What a record puts into a slot is found under the name of the slot. -/
theorem member?_slot (x : SensorRecord) {i : Nat} {name : String} {value : Option Json}
    (h : (((Json.Record.form SensorRecord).map Json.Slot.name).zip (Json.Record.values x))[i]?
      = some (name, value)) : (Json.ofRecord x).member? name = value :=
  Json.member?_ofRecord (by decide) rfl _ (List.mem_of_getElem? h)

/-- The groups of a record with their names, and whether they are present. -/
def groupMarks : List (String × (SensorRecord → Bool)) :=
  [("loc", (·.location.isSome)), ("env", (·.environment.isSome)), ("bat", (·.battery.isSome)),
    ("geiger", (·.geiger.isSome)), ("pms", (·.pms.isSome)), ("opc", (·.opc.isSome)),
    ("gateway", (·.gateway.isSome)), ("service", (·.service.isSome))]

end SensorRecord

open SensorRecord (member?_slot groupMarks approximated)

instance : Layered SensorRecord where
  named :=
    [(["device_id"], (·.deviceId.map .word)), (["device_sn"], (·.deviceName.map .text)),
        (["device_type"], (·.deviceType.map .text)), (["captured_at"], (·.capturedAt.map .instant))]
      ++ groupNames "loc" (·.location) ++ groupNames "env" (·.environment)
      ++ groupNames "bat" (·.battery) ++ groupNames "geiger" (·.geiger) ++ groupNames "pms" (·.pms)
      ++ groupNames "opc" (·.opc) ++ groupNames "gateway" (·.gateway)
      ++ groupNames "service" (·.service)
  map_named := by
    simp only [List.map_append, map_groupNames]
    rfl
  at?_named p hp x := by
    simp only [List.mem_append, List.mem_cons, List.not_mem_nil, or_false, or_assoc] at hp
    rcases hp with rfl | rfl | rfl | rfl | h | h | h | h | h | h | h | h
    · rw [Json.at?_singleton, x.member?_slot (i := 0) rfl, Option.map_map]; rfl
    · rw [Json.at?_singleton, x.member?_slot (i := 1) rfl, Option.map_map]; rfl
    · rw [Json.at?_singleton, x.member?_slot (i := 2) rfl, Option.map_map]; rfl
    · rw [Json.at?_singleton, x.member?_slot (i := 3) rfl, Option.map_map]; rfl
    · exact at?_groupNames (member?_slot (i := 4) · rfl) p h x
    · exact at?_groupNames (member?_slot (i := 5) · rfl) p h x
    · exact at?_groupNames (member?_slot (i := 6) · rfl) p h x
    · exact at?_groupNames (member?_slot (i := 7) · rfl) p h x
    · exact at?_groupNames (member?_slot (i := 8) · rfl) p h x
    · exact at?_groupNames (member?_slot (i := 9) · rfl) p h x
    · exact at?_groupNames (member?_slot (i := 10) · rfl) p h x
    · exact at?_groupNames (member?_slot (i := 11) · rfl) p h x
  groups := groupMarks
  member?_groups p hp x := by
    simp only [groupMarks, List.mem_cons, List.not_mem_nil, or_false] at hp
    rcases hp with rfl | rfl | rfl | rfl | rfl | rfl | rfl | rfl
    · rw [x.member?_slot (i := 4) rfl, Option.isSome_map]
    · rw [x.member?_slot (i := 5) rfl, Option.isSome_map]
    · rw [x.member?_slot (i := 6) rfl, Option.isSome_map]
    · rw [x.member?_slot (i := 7) rfl, Option.isSome_map]
    · rw [x.member?_slot (i := 8) rfl, Option.isSome_map]
    · rw [x.member?_slot (i := 9) rfl, Option.isSome_map]
    · rw [x.member?_slot (i := 10) rfl, Option.isSome_map]
    · rw [x.member?_slot (i := 11) rfl, Option.isSome_map]
  mark := approximated
  group_overlay p hp _ _ := by
    simp only [groupMarks, List.mem_cons, List.not_mem_nil, or_false] at hp
    rcases hp with rfl | rfl | rfl | rfl | rfl | rfl | rfl | rfl <;> exact isSome_overlayGroup ..
  mark_overlay _ _ := rfl
  field_blank := by decide
  group_blank := by decide
  eq_of_fields {x y} hfields hgroups hmark := by
    simp only [fields, List.forall_mem_append, List.forall_mem_cons, and_assoc] at hfields
    simp only [groupMarks, List.forall_mem_cons] at hgroups
    obtain ⟨hid, hname, htype, hat, -, hloc, henv, hbat, hgeiger, hpms, hopc, hgateway, hservice⟩ :=
      hfields
    obtain ⟨hloc', henv', hbat', hgeiger', hpms', hopc', hgateway', hservice', -⟩ := hgroups
    have hid' := Option.map_injective (fun _ _ => Leaf.word.inj) hid
    have hname' := Option.map_injective (fun _ _ => Leaf.text.inj) hname
    have htype' := Option.map_injective (fun _ _ => Leaf.text.inj) htype
    have hat' := Option.map_injective (fun _ _ => Leaf.instant.inj) hat
    replace hloc := eq_of_groupFields hloc hloc'
    replace henv := eq_of_groupFields henv henv'
    replace hbat := eq_of_groupFields hbat hbat'
    replace hgeiger := eq_of_groupFields hgeiger hgeiger'
    replace hpms := eq_of_groupFields hpms hpms'
    replace hopc := eq_of_groupFields hopc hopc'
    replace hgateway := eq_of_groupFields hgateway hgateway'
    replace hservice := eq_of_groupFields hservice hservice'
    cases x
    cases y
    rw [SensorRecord.mk.injEq]
    exact ⟨hid', hname', htype', hat', hloc, henv, hbat, hgeiger, hpms, hopc, hgateway, hservice,
      hmark⟩

/-! ## Laws -/

section Laws

variable {α : Type} [Overlay α] [Json.Record α] [Inhabited α] [Fielded α] [Layered α]

theorem overlay_assoc (a b c : α) :
    overlay (overlay a b) c = overlay a (overlay b c) := by
  refine eq_of_fields (fun field hfield => ?_) (fun p hp => ?_) ?_
  · simp only [field_overlay field hfield, Option.or_assoc]
  · simp only [group_overlay p hp, Bool.or_assoc]
  · simp only [mark_overlay]

/-- An update that says nothing changes nothing. -/
theorem overlay_default (a : α) : overlay a default = a := by
  refine eq_of_fields (fun field hfield => ?_) (fun p hp => ?_) (mark_overlay a default)
  · rw [field_overlay field hfield, field_blank field hfield, Option.none_or]
  · rw [group_overlay p hp, group_blank p hp, Bool.or_false]

/-- Two updates have no field with different leaves. -/
def Agree (b c : α) : Prop :=
  ∀ field ∈ fields, ∀ x y : Leaf, field b = some x → field c = some y → x = y

/-- Updates that agree may change places. -/
theorem overlay_right_comm (a : α) {b c : α} (h : Agree b c) :
    overlay (overlay a b) c = overlay (overlay a c) b := by
  refine eq_of_fields (fun field hfield => ?_) (fun p hp => ?_) ?_
  · simp only [field_overlay field hfield]
    cases hb : field b with
    | none => rfl
    | some x =>
      cases hc : field c with
      | none => rfl
      | some y => rw [h field hfield x y hb hc, Option.some_or]
  · simp only [group_overlay p hp, Bool.or_right_comm]
  · simp only [mark_overlay]

end Laws

end FieldTelemetry
