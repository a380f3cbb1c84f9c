import FieldTelemetry.Proofs.Files.Shown

/-!
# Confined files

Whatever text comes as an id, the file system is asked for nothing outside the folder that the file
of the id is in: for the folder, for the file and for the temporary files of the file. When the text
is no id, it is not asked for anything.

## Main definitions

* `Path.ChildOf`: what is directly in a folder
* `Belongs`, `Traced.Grows`: the paths that belong to a file, and a file system that was asked for
  some of them
* `ConfinedSnapshots`, `ConfinedStamps`: what is known of the files of snapshots and stamps

## Main results

* `confined`: all that is known of the files of snapshots and stamps
-/

namespace FieldTelemetry.Files

open Stamp (Cache StampStore)
open Store (Backend Call EntityId.Valid Folder Folders Hidden Mergeable Phase StoreError fileName
  temporaryName)
open Time (Instant)
open Wire (Message)

/-- What is at a path is directly in a folder. -/
def Path.ChildOf (path folder : Path) : Prop := ∃ name, Name name ∧ path = folder ++ [name]

/-- The paths that belong to a file: those of its folder, of itself and of its temporary files. -/
def Belongs (folder : Path) (name : String) (path : Path) : Prop :=
  path = folder ∨ path = folder ++ [name] ∨ ∃ number, path = temporaryPath folder name number

/-! ## Traces -/

namespace Traced

variable {σ : Type} {P : Path → Prop} {s s' s'' : Traced σ}

/-- A file system was asked for some more paths of a kind. -/
def Grows (P : Path → Prop) (s s' : Traced σ) : Prop :=
  ∃ paths, s'.touched = s.touched ++ paths ∧ ∀ path ∈ paths, P path

namespace Grows

theorem refl (P : Path → Prop) (s : Traced σ) : Grows P s s := ⟨[], by simp⟩

theorem trans (h : Grows P s s') (h' : Grows P s' s'') : Grows P s s'' := by
  obtain ⟨paths, htouched, hpaths⟩ := h
  obtain ⟨paths', htouched', hpaths'⟩ := h'
  refine ⟨paths ++ paths', by rw [htouched', htouched, List.append_assoc], fun path hmem => ?_⟩
  exact (List.mem_append.mp hmem).elim (hpaths path) (hpaths' path)

theorem touch {α : Type} (s : Traced σ) {paths : List Path} (h : ∀ path ∈ paths, P path)
    (asked : α × σ) : Grows P s (s.touch paths asked).2 := ⟨paths, rfl, h⟩

end Grows

variable [FileSystem σ] {path : Path}

theorem grows_read (s : Traced σ) (h : P path) : Grows P s (FileSystem.read s path).2 :=
  .touch s (List.forall_mem_singleton.mpr h) _

theorem grows_list (s : Traced σ) (h : P path) : Grows P s (FileSystem.list s path).2 :=
  .touch s (List.forall_mem_singleton.mpr h) _

theorem grows_makeFolder (s : Traced σ) (h : P path) :
    Grows P s (FileSystem.makeFolder s path).2 := .touch s (List.forall_mem_singleton.mpr h) _

theorem grows_write (s : Traced σ) (h : P path) (contents : Octets) (now : Instant) :
    Grows P s (FileSystem.write s path contents now).2 :=
  .touch s (List.forall_mem_singleton.mpr h) _

theorem grows_rename (s : Traced σ) {target : Path} (h : P path) (htarget : P target) :
    Grows P s (FileSystem.rename s path target).2 :=
  .touch s (List.forall_mem_cons.mpr ⟨h, List.forall_mem_singleton.mpr htarget⟩) _

theorem grows_remove (s : Traced σ) (h : P path) : Grows P s (FileSystem.remove s path).2 :=
  .touch s (List.forall_mem_singleton.mpr h) _

theorem grows_number (s : Traced σ) : Grows P s (FileSystem.number s).2 :=
  .touch s (List.forall_mem_nil _) _

/-- A replacement asks for nothing but what belongs to the file. -/
theorem grows_replaceFile (s : Traced σ) {folder : Path} {name : String} (hname : Name name)
    (contents : Octets) (now : Instant) : Grows (Belongs folder name) s
      (replaceFile s (folder ++ [name]) contents now).2 := by
  have hfolder : Belongs folder name folder := .inl rfl
  have hfile : Belongs folder name (folder ++ [name]) := .inr (.inl rfl)
  have htemporary (number : UInt64) : Belongs folder name (temporaryPath folder name number) :=
    .inr (.inr ⟨number, rfl⟩)
  simp only [replaceFile, hname.parent?_concat, hname.name?_concat, Option.getD_some]
  have hmake := s.grows_makeFolder hfolder
  generalize FileSystem.makeFolder s folder = made at hmake
  obtain ⟨_ | _, s₁⟩ := made
  · exact hmake
  have hnumber := hmake.trans s₁.grows_number
  dsimp only
  generalize FileSystem.number s₁ = drawn at hnumber
  obtain ⟨number, s₂⟩ := drawn
  have hwrite := hnumber.trans (s₂.grows_write (htemporary number) contents now)
  dsimp only
  generalize FileSystem.write s₂ (temporaryPath folder name number) contents now = written at hwrite
  obtain ⟨_ | _, s₃⟩ := written
  · exact hwrite
  have hrename := hwrite.trans (s₃.grows_rename (htemporary number) hfile)
  dsimp only
  generalize FileSystem.rename s₃ (temporaryPath folder name number) (folder ++ [name]) = renamed
    at hrename
  obtain ⟨_ | _, s₄⟩ := renamed
  · exact hrename.trans (s₄.grows_remove (htemporary number))
  · exact hrename

end Traced

/-! ## Snapshots -/

section Snapshots

variable {σ : Type} [FileSystem σ] {kind id : String}

/-- The snapshots are in the same root, in a file system that was asked for some more paths of a
kind. -/
def SnapshotFiles.Grows (P : Path → Prop) (s s' : SnapshotFiles (Traced σ)) : Prop :=
  s'.root = s.root ∧ s.files.Grows P s'.files

/-- What every read and write of the entity of a call keeps is kept by the call. -/
theorem run_keeps {α τ : Type} [Mergeable α] [Backend τ] {P : τ → Prop} (call : Call α)
    (now : Instant) (hread : ∀ s, P s → P (Backend.read s call.kind.name call.id).2)
    (hwrite : ∀ s contents, P s →
      P (Backend.write s call.kind.name call.id contents now).2) {s : τ} (h : P s) :
    P (call.run now s).2 := by
  have hrelated := finish_of_related (R := fun s t => s = t ∧ P s) call now
    (fun s _ ⟨heq, h⟩ => heq ▸ ⟨rfl, rfl, hread s h⟩)
    (fun s _ contents ⟨heq, h⟩ => heq ▸ ⟨rfl, rfl, hwrite s contents h⟩) call.start ⟨rfl, h⟩
  exact hrelated.2.2

theorem grows_snapshot_read (s : SnapshotFiles (Traced σ)) (hkind : EntityId.Valid kind)
    (hid : EntityId.Valid id) :
    s.Grows (Belongs (s.root ++ [kind]) (fileName id)) (Backend.read s kind id).2 := by
  rw [s.read_of_valid hkind hid]
  exact ⟨rfl, s.files.grows_read (.inr (.inl rfl))⟩

theorem grows_snapshot_write (s : SnapshotFiles (Traced σ)) (hkind : EntityId.Valid kind)
    (hid : EntityId.Valid id) (contents : Octets) (now : Instant) :
    s.Grows (Belongs (s.root ++ [kind]) (fileName id))
      (Backend.write s kind id contents now).2 := by
  rw [s.write_of_valid hkind hid]
  exact ⟨rfl, s.files.grows_replaceFile (name_fileName hid) contents now⟩

theorem grows_snapshot_list (s : SnapshotFiles (Traced σ)) (kind : String) :
    s.files.Grows (fun path => EntityId.Valid kind ∧ path = s.root ++ [kind])
      (Backend.list s kind).2.files := by
  by_cases hkind : EntityId.Valid kind
  · rw [s.list_of_valid hkind]
    exact s.files.grows_list ⟨hkind, rfl⟩
  · rw [s.list_of_not_valid hkind]
    exact .refl _ _

omit [FileSystem σ] in
theorem SnapshotFiles.Grows.trans {P : Path → Prop} {s s' s'' : SnapshotFiles (Traced σ)}
    (h : s.Grows P s') (h' : s'.Grows P s'') : s.Grows P s'' :=
  ⟨h'.1.trans h.1, h.2.trans h'.2⟩

/-- A call asks for nothing but what belongs to the file of its entity. -/
theorem grows_run {α : Type} [Mergeable α] (call : Call α) (now : Instant)
    (s : SnapshotFiles (Traced σ)) (hkind : EntityId.Valid call.kind.name)
    (hid : EntityId.Valid call.id) :
    s.Grows (Belongs (s.root ++ [call.kind.name]) (fileName call.id)) (call.run now s).2 := by
  refine run_keeps call now (fun s' h => ?_) (fun s' contents h => ?_) ⟨rfl, .refl _ _⟩
  · have hread := grows_snapshot_read s' hkind hid
    rw [h.1] at hread
    exact h.trans hread
  · have hwrite := grows_snapshot_write s' hkind hid contents now
    rw [h.1] at hwrite
    exact h.trans hwrite

/-- A call for a kind or an id that is refused asks for nothing. -/
theorem run_of_refused {α : Type} [Mergeable α] (call : Call α) (now : Instant)
    (s : SnapshotFiles σ) (h : ¬ (EntityId.Valid call.kind.name ∧ EntityId.Valid call.id)) :
    (call.run now s).2 = s := by
  refine run_keeps call now (P := fun s' => s' = s) (fun s' heq => ?_) (fun s' contents heq => ?_)
    rfl
  · rw [s'.read_of_not_valid h]
    exact heq
  · rw [s'.write_of_not_valid h]
    exact heq

end Snapshots

/-! ## Stamps -/

section Stamps

variable {σ : Type} [FileSystem σ] {device : String}

/-- The stamps are in the same folder, in a file system that was asked for some more paths of a
kind. -/
def StampFiles.Grows (P : Path → Prop) (s s' : StampFiles (Traced σ)) : Prop :=
  s'.folder = s.folder ∧ s.files.Grows P s'.files

/-- What every read and write of the stamp of a device keeps is kept by its messages. -/
theorem process_keeps {τ : Type} [StampStore τ] {P : τ → Prop}
    (hread : ∀ s, P s → P (StampStore.read s device).2)
    (hwrite : ∀ s contents now, P s → P (StampStore.write s device contents now).2) {s : τ}
    (h : P s) (cache : Cache) (m : Message) (now : Instant) :
    P (cache.process device m now s).2.2 := by
  have hrelated := process_of_related (R := fun s t => s = t ∧ P s) device
    (fun s _ ⟨heq, h⟩ => heq ▸ ⟨rfl, rfl, hread s h⟩)
    (fun s _ contents now ⟨heq, h⟩ => heq ▸ ⟨rfl, rfl, hwrite s contents now h⟩) ⟨rfl, h⟩ cache m
    now
  exact hrelated.2.2.2

/-- A message of a device asks for nothing but what belongs to the file of its stamp. -/
theorem grows_process (s : StampFiles (Traced σ)) (hdevice : EntityId.Valid device) (cache : Cache)
    (m : Message) (now : Instant) :
    s.Grows (Belongs s.folder (fileName device)) (cache.process device m now s).2.2 := by
  refine process_keeps (fun s' h => ?_) (fun s' contents now h => ?_) ⟨rfl, .refl _ _⟩ cache m now
  · rw [s'.read_of_valid hdevice]
    exact ⟨h.1, h.2.trans (s'.files.grows_read (.inr (.inl (by rw [h.1]))))⟩
  · have hreplace : s'.files.Grows (Belongs s'.folder (fileName device)) _ :=
      s'.files.grows_replaceFile (name_fileName hdevice) contents now
    rw [s'.write_of_valid hdevice]
    rw [h.1] at hreplace ⊢
    exact ⟨rfl, h.2.trans hreplace⟩

/-- A message of a device that is refused asks for nothing. -/
theorem process_of_refused (s : StampFiles σ) (h : ¬ EntityId.Valid device) (cache : Cache)
    (m : Message) (now : Instant) : (cache.process device m now s).2.2 = s := by
  refine process_keeps (P := fun s' => s' = s) (fun s' heq => ?_) (fun s' contents now heq => ?_)
    rfl cache m now
  · rw [s'.read_of_not_valid h]
    exact heq
  · rw [s'.write_of_not_valid h]
    exact heq

end Stamps

/-! ## Confined files -/

/-- What is known of the files of snapshots in a root. -/
structure ConfinedSnapshots (root : Path) : Prop where
  /-- A kind and an id that are accepted have a file. It is directly in the folder of the kind,
  which is directly in the root, and it is not hidden. -/
  child : ∀ {kind id}, EntityId.Valid kind → EntityId.Valid id → ∃ path name,
    snapshotPath root kind id = .ok path ∧ path.ChildOf (root.join kind)
      ∧ (root.join kind).ChildOf root ∧ path.name? = some name ∧ ¬ Hidden name
  /-- Other kinds and ids have other files. -/
  distinct : ∀ {kind id kind' id' path}, snapshotPath root kind id = .ok path →
    snapshotPath root kind' id' = .ok path → kind = kind' ∧ id = id'
  /-- The file is not a temporary file of anything. -/
  lasting : ∀ {kind id path}, snapshotPath root kind id = .ok path →
    ∀ folder name number, Name name → path ≠ temporaryPath folder name number
  /-- Nothing is asked for outside the folder of the kind, and in it nothing but the file and its
  temporary files. -/
  touched : ∀ {kind id}, EntityId.Valid kind → EntityId.Valid id →
    ∀ {σ : Type} [FileSystem σ] (files : Traced σ) contents now,
      files.Grows (Belongs (root ++ [kind]) (fileName id))
          (Backend.read (⟨root, files⟩ : SnapshotFiles _) kind id).2.files
        ∧ files.Grows (Belongs (root ++ [kind]) (fileName id))
          (Backend.write (⟨root, files⟩ : SnapshotFiles _) kind id contents now).2.files
  /-- Nothing but the folder of the kind is asked for when the kind is listed, if it is accepted. -/
  touched_list : ∀ kind {σ : Type} [FileSystem σ] (files : Traced σ),
    files.Grows (fun path => EntityId.Valid kind ∧ path = root ++ [kind])
      (Backend.list (⟨root, files⟩ : SnapshotFiles _) kind).2.files
  /-- All steps of a call keep to the file as well. -/
  touched_run : ∀ {α : Type} [Mergeable α] (call : Call α), EntityId.Valid call.kind.name →
    EntityId.Valid call.id → ∀ {σ : Type} [FileSystem σ] (files : Traced σ) now,
      files.Grows (Belongs (root ++ [call.kind.name]) (fileName call.id))
        (call.run now (⟨root, files⟩ : SnapshotFiles _)).2.files
  /-- A kind or an id that is refused has no file, and nothing is asked for. -/
  refused : ∀ {kind id}, ¬ (EntityId.Valid kind ∧ EntityId.Valid id) →
    (∀ path, snapshotPath root kind id ≠ .ok path)
      ∧ ∀ {σ : Type} [FileSystem σ] (files : Traced σ) contents now,
        (Backend.read (⟨root, files⟩ : SnapshotFiles _) kind id).2.files = files
          ∧ (Backend.write (⟨root, files⟩ : SnapshotFiles _) kind id contents now).2.files = files
  /-- Nor is it in any step of a call. -/
  refused_run : ∀ {α : Type} [Mergeable α] (call : Call α),
    ¬ (EntityId.Valid call.kind.name ∧ EntityId.Valid call.id) →
      ∀ {σ : Type} [FileSystem σ] (files : Traced σ) now,
        (call.run now (⟨root, files⟩ : SnapshotFiles _)).2.files = files
  /-- The snapshots that folders keep are snapshots in files. -/
  shown : ∀ {tree : Tree} {folders : Folders}, ShowsSnapshots ⟨root, tree⟩ folders →
    (∀ kind id, (Backend.read (⟨root, tree⟩ : SnapshotFiles _) kind id).1
        = (Backend.read folders kind id).1
      ∧ ShowsSnapshots (Backend.read (⟨root, tree⟩ : SnapshotFiles _) kind id).2
        (Backend.read folders kind id).2)
    ∧ ∀ kind id contents now,
      (Backend.write (⟨root, tree⟩ : SnapshotFiles _) kind id contents now).1
          = (Backend.write folders kind id contents now).1
        ∧ ShowsSnapshots (Backend.write (⟨root, tree⟩ : SnapshotFiles _) kind id contents now).2
          (Backend.write folders kind id contents now).2

theorem confinedSnapshots (root : Path) : ConfinedSnapshots root where
  child hkind hid := by
    have hname := name_fileName hid
    refine ⟨_, _, snapshotPath_of_valid hkind hid, ⟨_, hname, ?_⟩,
      ⟨_, name_of_valid hkind, (name_of_valid hkind).join_eq root⟩, hname.name?_concat _,
      not_hidden_fileName hid⟩
    rw [(name_of_valid hkind).join_eq]
  distinct := snapshotPath_inj
  lasting hpath folder name number hname := by
    obtain ⟨⟨-, hid⟩, rfl⟩ := snapshotPath_eq_ok_iff.mp hpath
    exact ne_temporaryPath hid hname number
  touched hkind hid _ _ files contents now :=
    ⟨(grows_snapshot_read ⟨root, files⟩ hkind hid).2,
      (grows_snapshot_write ⟨root, files⟩ hkind hid contents now).2⟩
  touched_list kind _ _ files := grows_snapshot_list ⟨root, files⟩ kind
  touched_run call hkind hid _ _ files now := (grows_run call now ⟨root, files⟩ hkind hid).2
  refused hrefused := by
    refine ⟨fun path hpath => hrefused (snapshotPath_eq_ok_iff.mp hpath).1,
      fun files contents now => ?_⟩
    rw [SnapshotFiles.read_of_not_valid _ hrefused, SnapshotFiles.write_of_not_valid _ hrefused]
    exact ⟨rfl, rfl⟩
  refused_run call hrefused _ _ files now :=
    congrArg SnapshotFiles.files (run_of_refused call now ⟨root, files⟩ hrefused)
  shown h :=
    ⟨fun kind id => h.read kind id, fun kind id contents now => h.write kind id contents now⟩

/-- What is known of the files of stamps in a folder. -/
structure ConfinedStamps (folder : Path) : Prop where
  /-- A device that is accepted has a file directly in the folder, which is not hidden. -/
  child : ∀ {device}, EntityId.Valid device → ∃ path name, stampPath folder device = .ok path
    ∧ path.ChildOf folder ∧ path.name? = some name ∧ ¬ Hidden name
  /-- Other devices have other files. -/
  distinct : ∀ {device device' path}, stampPath folder device = .ok path →
    stampPath folder device' = .ok path → device = device'
  /-- The file is not a temporary file of anything. -/
  lasting : ∀ {device path}, stampPath folder device = .ok path →
    ∀ folder name number, Name name → path ≠ temporaryPath folder name number
  /-- Nothing is asked for outside the folder, and in it nothing but the file and its temporary
  files. -/
  touched : ∀ {device}, EntityId.Valid device → ∀ {σ : Type} [FileSystem σ] (files : Traced σ)
    (cache : Cache) m now, files.Grows (Belongs folder (fileName device))
      (cache.process device m now (⟨folder, files⟩ : StampFiles _)).2.2.files
  /-- A device that is refused has no file, and nothing is asked for. -/
  refused : ∀ {device}, ¬ EntityId.Valid device → (∀ path, stampPath folder device ≠ .ok path)
    ∧ ∀ {σ : Type} [FileSystem σ] (files : Traced σ) contents now (cache : Cache) m,
      (StampStore.read (⟨folder, files⟩ : StampFiles _) device).2.files = files
        ∧ (StampStore.write (⟨folder, files⟩ : StampFiles _) device contents now).2.files = files
        ∧ (cache.process device m now (⟨folder, files⟩ : StampFiles _)).2.2.files = files
  /-- The stamps that a folder keeps are stamps in files. -/
  shown : ∀ {tree : Tree} {kept : Folder}, ShowsStamps ⟨folder, tree⟩ kept →
    ∀ (cache : Cache) device m now,
      (cache.process device m now (⟨folder, tree⟩ : StampFiles _)).1
          = (cache.process device m now kept).1
        ∧ (cache.process device m now (⟨folder, tree⟩ : StampFiles _)).2.1
          = (cache.process device m now kept).2.1
        ∧ ShowsStamps (cache.process device m now (⟨folder, tree⟩ : StampFiles _)).2.2
          (cache.process device m now kept).2.2

theorem confinedStamps (folder : Path) : ConfinedStamps folder where
  child hdevice := by
    have hname := name_fileName hdevice
    exact ⟨_, _, stampPath_of_valid hdevice, ⟨_, hname, rfl⟩, hname.name?_concat _,
      not_hidden_fileName hdevice⟩
  distinct := stampPath_inj
  lasting hpath folder name number hname := by
    obtain ⟨hdevice, rfl⟩ := stampPath_eq_ok_iff.mp hpath
    exact ne_temporaryPath hdevice hname number
  touched hdevice _ _ files cache m now :=
    (grows_process ⟨folder, files⟩ hdevice cache m now).2
  refused hrefused := by
    refine ⟨fun path hpath => hrefused (stampPath_eq_ok_iff.mp hpath).1,
      fun files contents now cache m => ?_⟩
    rw [StampFiles.read_of_not_valid _ hrefused, StampFiles.write_of_not_valid _ hrefused,
      process_of_refused _ hrefused]
    exact ⟨rfl, rfl, rfl⟩
  shown h cache device m now := h.process cache device m now

/-- Snapshots and stamps are confined to their root and their folder, wherever these are. -/
theorem confined (root folder : Path) : ConfinedSnapshots root ∧ ConfinedStamps folder :=
  ⟨confinedSnapshots root, confinedStamps folder⟩

/-- A text that climbs is refused, and what only looks like it is one name. -/
example : snapshotPath ["data"] "device" "../../etc/passwd"
      = .error (.invalidId "../../etc/passwd")
    ∧ snapshotPath ["data"] "device" "etc:passwd" = .ok ["data", "device", "etc:passwd.json"] :=
  ⟨rfl, rfl⟩

end FieldTelemetry.Files
