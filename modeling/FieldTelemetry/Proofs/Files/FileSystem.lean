import FieldTelemetry.Proofs.Files.Path
import FieldTelemetry.Stamp.Cache
import FieldTelemetry.Store.Reconcile

/-!
# Snapshots and stamps in a file system

A file system is asked for one thing at a time, each time by a path. Contents are replaced by way of
a temporary file beside the file, which is renamed and, if that fails, removed.

## Main definitions

* `FileSystem`: the file systems
* `replaceFile`: other contents for a file
* `SnapshotFiles`, `StampFiles`: where snapshots and stamps are kept in a file system
* `Traced`: a file system with the paths that it was asked for
-/

namespace FieldTelemetry.Files

open Stamp (StampStore)
open Store (Backend EntityId.Valid Fetched Listing StoreError documentOf? fileName sortById)
open Time (Instant)

/-! ## File systems -/

/-- What is found where the entries of a folder are looked for. -/
inductive Entries
  /-- They could not be read. -/
  | failed
  /-- There is no such folder. -/
  | absent
  /-- The names of the entries, with the times when they were written. -/
  | entries (names : List (String × Instant))

/-- What is asked of a file system. -/
class FileSystem (σ : Type) where
  /-- The contents of a file. -/
  read : σ → Path → Fetched × σ
  /-- The entries of a folder. -/
  list : σ → Path → Entries × σ
  /-- A folder is made, and those that it is in, unless they are there. -/
  makeFolder : σ → Path → Bool × σ
  /-- Contents are written to a file. -/
  write : σ → Path → Octets → Instant → Bool × σ
  /-- A file gets another path, and takes the place of the file that is there. -/
  rename : σ → (source target : Path) → Bool × σ
  /-- A file is removed. -/
  remove : σ → Path → Bool × σ
  /-- A random number, which has nothing to do with files. -/
  number : σ → UInt64 × σ

variable {σ : Type} [FileSystem σ]

/-- Contents are written to a temporary file, which takes the place of the file then. It is removed
if it cannot. -/
def replaceFile (state : σ) (path : Path) (contents : Octets) (now : Instant) : Bool × σ :=
  let folder := path.parent?.getD ["."]
  match FileSystem.makeFolder state folder with
  | (false, state) => (false, state)
  | (true, state) =>
    let (number, state) := FileSystem.number state
    let temporary := temporaryPath folder (path.name?.getD "snapshot") number
    match FileSystem.write state temporary contents now with
    | (false, state) => (false, state)
    | (true, state) =>
      match FileSystem.rename state temporary path with
      | (false, state) => (false, (FileSystem.remove state temporary).2)
      | (true, state) => (true, state)

/-! ## Snapshots -/

/-- Snapshots in a file system. -/
structure SnapshotFiles (σ : Type) where
  /-- The folder with the folders of all kinds. -/
  root : Path
  /-- The file system. -/
  files : σ

/-- The answer of a backend that has looked for a snapshot. -/
def snapshotAnswer : Fetched → Except StoreError (Option Octets)
  | .failed => .error .io
  | .absent => .ok none
  | .contents octets => .ok (some octets)

/-- The answer of a backend that has looked for all snapshots of a kind. -/
def listAnswer : Entries → Except StoreError (List Listing)
  | .failed => .error .io
  | .absent => .ok []
  | .entries names => .ok <| sortById <| names.filterMap fun (name, modified) =>
    (documentOf? name).map fun id => ⟨id, modified⟩

instance : Backend (SnapshotFiles σ) where
  read s kind id :=
    match snapshotPath s.root kind id with
    | .error error => (.error error, s)
    | .ok path =>
      let (fetched, files) := FileSystem.read s.files path
      (snapshotAnswer fetched, { s with files })
  write s kind id contents now :=
    match snapshotPath s.root kind id with
    | .error error => (.error error, s)
    | .ok path =>
      let (replaced, files) := replaceFile s.files path contents now
      (if replaced then .ok () else .error .io, { s with files })
  list s kind :=
    match check kind with
    | .error error => (.error error, s)
    | .ok () =>
      let (entries, files) := FileSystem.list s.files (s.root.join kind)
      (listAnswer entries, { s with files })

namespace SnapshotFiles

variable {kind id : String} (s : SnapshotFiles σ)

theorem read_of_valid (hkind : EntityId.Valid kind) (hid : EntityId.Valid id) :
    Backend.read s kind id
      = (snapshotAnswer (FileSystem.read s.files (s.root ++ [kind] ++ [fileName id])).1,
        { s with files := (FileSystem.read s.files (s.root ++ [kind] ++ [fileName id])).2 }) := by
  simp only [Backend.read, snapshotPath_of_valid hkind hid]

theorem write_of_valid (hkind : EntityId.Valid kind) (hid : EntityId.Valid id) (contents : Octets)
    (now : Instant) :
    Backend.write s kind id contents now
      = (if (replaceFile s.files (s.root ++ [kind] ++ [fileName id]) contents now).1 then .ok ()
          else .error .io,
        { s with files :=
          (replaceFile s.files (s.root ++ [kind] ++ [fileName id]) contents now).2 }) := by
  simp only [Backend.write, snapshotPath_of_valid hkind hid]

theorem list_of_valid (hkind : EntityId.Valid kind) :
    Backend.list s kind = (listAnswer (FileSystem.list s.files (s.root ++ [kind])).1,
      { s with files := (FileSystem.list s.files (s.root ++ [kind])).2 }) := by
  simp only [Backend.list, check_of_valid hkind, (name_of_valid hkind).join_eq]

/-- The file system is not asked for anything when a kind or an id is refused. -/
theorem read_of_not_valid (h : ¬ (EntityId.Valid kind ∧ EntityId.Valid id)) :
    Backend.read s kind id
      = (.error (.invalidId (if EntityId.Valid kind then id else kind)), s) := by
  simp only [Backend.read, snapshotPath_of_not_valid h]

theorem write_of_not_valid (h : ¬ (EntityId.Valid kind ∧ EntityId.Valid id)) (contents : Octets)
    (now : Instant) : Backend.write s kind id contents now
      = (.error (.invalidId (if EntityId.Valid kind then id else kind)), s) := by
  simp only [Backend.write, snapshotPath_of_not_valid h]

theorem list_of_not_valid (h : ¬ EntityId.Valid kind) :
    Backend.list s kind = (.error (.invalidId kind), s) := by
  simp only [Backend.list, check_of_not_valid h]

end SnapshotFiles

/-! ## Stamps -/

/-- Stamps in a file system. -/
structure StampFiles (σ : Type) where
  /-- The folder of the stamps. -/
  folder : Path
  /-- The file system. -/
  files : σ

instance : StampStore (StampFiles σ) where
  read s device :=
    match stampPath s.folder device with
    | .error _ => (.failed, s)
    | .ok path =>
      let (fetched, files) := FileSystem.read s.files path
      (fetched, { s with files })
  write s device contents now :=
    match stampPath s.folder device with
    | .error _ => (false, s)
    | .ok path =>
      let (replaced, files) := replaceFile s.files path contents now
      (replaced, { s with files })

namespace StampFiles

variable {device : String} (s : StampFiles σ)

theorem read_of_valid (h : EntityId.Valid device) : StampStore.read s device
    = ((FileSystem.read s.files (s.folder ++ [fileName device])).1,
      { s with files := (FileSystem.read s.files (s.folder ++ [fileName device])).2 }) := by
  simp only [StampStore.read, stampPath_of_valid h]

theorem write_of_valid (h : EntityId.Valid device) (contents : Octets) (now : Instant) :
    StampStore.write s device contents now
      = ((replaceFile s.files (s.folder ++ [fileName device]) contents now).1,
        { s with files :=
          (replaceFile s.files (s.folder ++ [fileName device]) contents now).2 }) := by
  simp only [StampStore.write, stampPath_of_valid h]

/-- The file system is not asked for anything when a device is refused. -/
theorem read_of_not_valid (h : ¬ EntityId.Valid device) :
    StampStore.read s device = (.failed, s) := by
  simp only [StampStore.read, stampPath_of_not_valid h]

theorem write_of_not_valid (h : ¬ EntityId.Valid device) (contents : Octets) (now : Instant) :
    StampStore.write s device contents now = (false, s) := by
  simp only [StampStore.write, stampPath_of_not_valid h]

end StampFiles

/-! ## Traces -/

/-- A file system with the paths that it was asked for, in this order. -/
structure Traced (σ : Type) where
  /-- The file system. -/
  files : σ
  /-- The paths. -/
  touched : List Path := []

/-- The file system after it was asked for some paths. -/
def Traced.touch {α : Type} (s : Traced σ) (paths : List Path) (asked : α × σ) : α × Traced σ :=
  (asked.1, ⟨asked.2, s.touched ++ paths⟩)

instance : FileSystem (Traced σ) where
  read s path := s.touch [path] (FileSystem.read s.files path)
  list s path := s.touch [path] (FileSystem.list s.files path)
  makeFolder s path := s.touch [path] (FileSystem.makeFolder s.files path)
  write s path contents now := s.touch [path] (FileSystem.write s.files path contents now)
  rename s source target := s.touch [source, target] (FileSystem.rename s.files source target)
  remove s path := s.touch [path] (FileSystem.remove s.files path)
  number s := s.touch [] (FileSystem.number s.files)

end FieldTelemetry.Files
