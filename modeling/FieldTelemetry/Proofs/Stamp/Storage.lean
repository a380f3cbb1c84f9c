import FieldTelemetry.Stamp.Cache

/-!
# Storage of stamp files

A store of stamp files is lawful when its files hold what was written to them last: a failed write
leaves every file as it is, and a file that was written can be read. A folder is such a store,
whatever is in it, and so is a folder on a disk that now and then refuses to be written to.

## Main definitions

* `stored?`: the contents of the stamp file of a device
* `LawfulStampStore`: the stores whose files hold what was written to them
* `Disk`: a folder on a disk that may refuse to be written to

## Main results

* `Folder.contents?_replace`: the contents of files after a replacement
* `LawfulStampStore Folder`, `LawfulStampStore Disk`: folders are lawful
-/

namespace FieldTelemetry

open Time (Instant)

/-! ## Files of a folder -/

namespace Store

theorem fileName_injective {a b : String} (h : fileName a = fileName b) : a = b := by
  have hlist : a.toList ++ ".json".toList = b.toList ++ ".json".toList := by
    rw [← String.toList_append, ← String.toList_append]
    exact congrArg String.toList h
  exact String.toList_inj.mp (List.append_cancel_right hlist)

namespace Folder

/-- The contents of a file that can be read. -/
def contents? (folder : Folder) (name : String) : Option Octets :=
  match folder.read name with
  | .contents octets => some octets
  | _ => none

theorem contents?_eq (folder : Folder) (name : String) :
    folder.contents? name = if nameLimit < name.utf8ByteSize then none
      else match folder.nodes.get? name with
        | some (.file contents _) => some contents
        | _ => none := by
  cases folder with
  | missing => simp [contents?, read, nodes]
  | blocked => simp [contents?, read, nodes]
  | entries table =>
    rw [contents?, read, nodes]
    -- A name may be too long for the file system.
    by_cases hlong : nameLimit < name.utf8ByteSize
    · rw [if_pos hlong, if_pos hlong]
    · rw [if_neg hlong, if_neg hlong]
      cases table.get? name with
      | none => rfl
      | some node => cases node <;> rfl

theorem contents?_of_nodes_empty {folder : Folder} (h : folder.nodes = .empty) (name : String) :
    folder.contents? name = none := by
  rw [contents?_eq, h, Table.get?_empty]
  split <;> rfl

/-- A replacement in a folder that is there changes one entry, or none. -/
theorem replace_entries_spec (table : Table String Node) (name : String) (contents : Octets)
    (now : Instant) :
    (((entries table).replace name contents now).1 = true ∧ temporarySize name ≤ nameLimit
        ∧ ((entries table).replace name contents now).2.nodes
          = table.insert name (.file contents now))
      ∨ (((entries table).replace name contents now).1 = false
        ∧ ((entries table).replace name contents now).2.nodes = table) := by
  unfold replace
  dsimp only
  split
  · exact .inr ⟨rfl, rfl⟩
  · split
    · rename_i hfits
      exact .inl ⟨rfl, hfits, rfl⟩
    · exact .inr ⟨rfl, rfl⟩

/-- A folder is made when it is missing. -/
theorem replace_missing (name : String) (contents : Octets) (now : Instant) :
    missing.replace name contents now = (entries .empty).replace name contents now := rfl

/-- A replacement changes one entry, or none. -/
theorem replace_spec (folder : Folder) (name : String) (contents : Octets) (now : Instant) :
    ((folder.replace name contents now).1 = true ∧ temporarySize name ≤ nameLimit
        ∧ (folder.replace name contents now).2.nodes
          = folder.nodes.insert name (.file contents now))
      ∨ ((folder.replace name contents now).1 = false
        ∧ (folder.replace name contents now).2.nodes = folder.nodes) := by
  cases folder with
  | blocked => exact .inr ⟨rfl, rfl⟩
  | missing =>
    rw [replace_missing]
    exact replace_entries_spec .empty name contents now
  | entries table => exact replace_entries_spec table name contents now

/-- After a replacement the file has the new contents, and all other files have theirs. After a
failed one all files have theirs. -/
theorem contents?_replace (folder : Folder) (name : String) (contents : Octets) (now : Instant)
    (other : String) :
    (folder.replace name contents now).2.contents? other
      = if (folder.replace name contents now).1 = true ∧ other = name then some contents
        else folder.contents? other := by
  rw [contents?_eq, contents?_eq]
  rcases folder.replace_spec name contents now with ⟨hdone, hfits, hnodes⟩ | ⟨hfailed, hnodes⟩
  · rw [hdone, hnodes, Table.get?_insert]
    by_cases hname : other = name
    · -- The temporary name is longer than the name, so the name can be read.
      have hshort : ¬ nameLimit < name.utf8ByteSize := by
        rw [temporarySize] at hfits
        omega
      simp [hname, hshort]
    · simp [hname]
  · simp [hfailed, hnodes]

end Folder

end Store

/-! ## Lawful stores -/

namespace Stamp

open Store (EntityId.Valid Fetched Folder fileName)

section Stores

variable {σ : Type} [StampStore σ]

/-- The contents of the stamp file of a device, if it can be read. -/
def stored? (state : σ) (device : String) : Option Octets :=
  match (StampStore.read state device).1 with
  | .contents octets => some octets
  | _ => none

end Stores

/-- The stores whose files hold what was written to them last. -/
class LawfulStampStore (σ : Type) [StampStore σ] : Prop where
  /-- Reading changes no file. -/
  stored?_read : ∀ (state : σ) (device other : String),
    stored? (StampStore.read state device).2 other = stored? state other
  /-- Writing changes one file, and none when it fails. -/
  stored?_write : ∀ (state : σ) (device : String) (contents : Octets) (now : Instant)
    (other : String), stored? (StampStore.write state device contents now).2 other
      = if (StampStore.write state device contents now).1 = true ∧ other = device then some contents
        else stored? state other

theorem stored?_folder (folder : Folder) (device : String) :
    stored? folder device
      = if EntityId.Valid device then folder.contents? (fileName device) else none := by
  change (match (if EntityId.Valid device then folder.read (fileName device) else .failed) with
    | .contents octets => some octets
    | _ => none) = _
  by_cases hvalid : EntityId.Valid device
  · rw [if_pos hvalid, if_pos hvalid]
    rfl
  · rw [if_neg hvalid, if_neg hvalid]

theorem write_folder (folder : Folder) (device : String) (contents : Octets) (now : Instant) :
    StampStore.write folder device contents now
      = if EntityId.Valid device then folder.replace (fileName device) contents now
        else (false, folder) := rfl

instance : LawfulStampStore Folder where
  stored?_read _ _ _ := rfl
  stored?_write folder device contents now other := by
    rw [write_folder]
    by_cases hvalid : EntityId.Valid device
    · rw [if_pos hvalid, stored?_folder, stored?_folder, Folder.contents?_replace]
      by_cases hother : other = device
      · subst hother
        rw [if_pos hvalid, if_pos hvalid]
        simp
      · have hname : fileName other ≠ fileName device :=
          fun h => hother (Store.fileName_injective h)
        simp only [hname, hother, and_false, if_false]
    · rw [if_neg hvalid, if_neg (by simp)]

/-! ## Disks -/

/-- A folder on a disk. -/
structure Disk where
  /-- The folder. -/
  folder : Folder
  /-- The disk takes new contents. -/
  writable : Bool

/-- A disk refuses to be written to, and else its folder keeps the stamp files. -/
instance : StampStore Disk where
  read disk device := ((StampStore.read disk.folder device).1, disk)
  write disk device contents now :=
    if disk.writable then
      let (done, folder) := StampStore.write disk.folder device contents now
      (done, { disk with folder })
    else (false, disk)

instance : LawfulStampStore Disk where
  stored?_read _ _ _ := rfl
  stored?_write disk device contents now other := by
    obtain ⟨folder, writable⟩ := disk
    cases writable with
    | true => exact LawfulStampStore.stored?_write folder device contents now other
    | false => exact (if_neg (by rintro ⟨⟨⟩, -⟩)).symm

end Stamp

end FieldTelemetry
