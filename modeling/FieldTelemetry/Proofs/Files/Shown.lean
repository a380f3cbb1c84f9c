import FieldTelemetry.Proofs.Files.Tree
import FieldTelemetry.Proofs.Store.Listed

/-!
# Files in trees and in folders

Snapshots and stamps in a file system are those that folders keep, as long as no temporary file is
left over. So what is known of calls and messages over folders is known of them over files.

## Main definitions

* `Clean`: the folders without temporary files
* `ShowsSnapshots`, `ShowsStamps`: a tree has the files of some folders

## Main results

* `finish_of_related`, `process_of_related`: calls and messages fare alike where the answers are the
  same
* `ShowsSnapshots.read`, `ShowsSnapshots.write`, `ShowsSnapshots.list`, `ShowsSnapshots.run`:
  snapshots in a tree are those in folders
* `ShowsStamps.read`, `ShowsStamps.write`, `ShowsStamps.process`: stamps in a tree are those in a
  folder
-/

namespace FieldTelemetry.Files

open Stamp (Cache StampFile StampStore)
open Store (Backend Call EntityId.Valid Folder Folders Hidden Mergeable Phase documentOf? fileName
  sortById temporaryName withId)
open Time (Instant)
open Wire (Message)

/-! ## Backends and stores that answer alike -/

section Calls

variable {α σ τ : Type} [Mergeable α] [Backend σ] [Backend τ] {R : σ → τ → Prop} (call : Call α)
  (now : Instant)

/-- A call does alike where backends answer alike. -/
theorem finish_of_related
    (hread : ∀ s t, R s t →
      (Backend.read s call.kind.name call.id).1 = (Backend.read t call.kind.name call.id).1
        ∧ R (Backend.read s call.kind.name call.id).2 (Backend.read t call.kind.name call.id).2)
    (hwrite : ∀ s t contents, R s t →
      (Backend.write s call.kind.name call.id contents now).1
          = (Backend.write t call.kind.name call.id contents now).1
        ∧ R (Backend.write s call.kind.name call.id contents now).2
          (Backend.write t call.kind.name call.id contents now).2)
    (phase : Phase α) {s : σ} {t : τ} (h : R s t) :
    (call.finish now phase s).1 = (call.finish now phase t).1
      ∧ R (call.finish now phase s).2 (call.finish now phase t).2 := by
  have hstep (phase : Phase α) {s : σ} {t : τ} (h : R s t) :
      (call.step now phase s).1 = (call.step now phase t).1
        ∧ R (call.step now phase s).2 (call.step now phase t).2 := by
    cases phase with
    | reading more =>
      obtain ⟨hanswer, hstate⟩ := hread s t h
      rw [Call.step, Call.step]
      generalize Backend.read s call.kind.name call.id = first at hanswer hstate
      generalize Backend.read t call.kind.name call.id = second at hanswer hstate
      obtain ⟨answer, s'⟩ := first
      obtain ⟨answer', t'⟩ := second
      obtain rfl : answer = answer' := hanswer
      cases answer <;> exact ⟨rfl, hstate⟩
    | writing more snapshot =>
      obtain ⟨hanswer, hstate⟩ := hwrite s t snapshot.render h
      rw [Call.step, Call.step]
      generalize Backend.write s call.kind.name call.id snapshot.render now = first
        at hanswer hstate
      generalize Backend.write t call.kind.name call.id snapshot.render now = second
        at hanswer hstate
      obtain ⟨answer, s'⟩ := first
      obtain ⟨answer', t'⟩ := second
      obtain rfl : answer = answer' := hanswer
      cases answer <;> exact ⟨rfl, hstate⟩
    | verifying more snapshot =>
      obtain ⟨hanswer, hstate⟩ := hread s t h
      rw [Call.step, Call.step]
      exact ⟨by simp only [hanswer], hstate⟩
    | done result => exact ⟨rfl, h⟩
  induction hleft : phase.left using Nat.strongRecOn generalizing phase s t with
  | _ left ih =>
    have hnext (hdone : phase.isDone = false) :
        (call.finish now phase s).1 = (call.finish now phase t).1
          ∧ R (call.finish now phase s).2 (call.finish now phase t).2 := by
      obtain ⟨hphase, hstate⟩ := hstep phase h
      rw [call.finish_step, call.finish_step now phase t, ← hphase]
      exact ih _ (hleft ▸ call.left_step_lt now phase s hdone) _ hstate rfl
    cases phase with
    | done result =>
      rw [Call.finish, Call.finish]
      exact ⟨rfl, h⟩
    | reading more => exact hnext rfl
    | writing more snapshot => exact hnext rfl
    | verifying more snapshot => exact hnext rfl

end Calls

section Messages

variable {σ τ : Type} [StampStore σ] [StampStore τ] {R : σ → τ → Prop} (device : String)
  (hread : ∀ s t, R s t → (StampStore.read s device).1 = (StampStore.read t device).1
    ∧ R (StampStore.read s device).2 (StampStore.read t device).2)
  (hwrite : ∀ s t contents now, R s t →
    (StampStore.write s device contents now).1 = (StampStore.write t device contents now).1
      ∧ R (StampStore.write s device contents now).2 (StampStore.write t device contents now).2)
  {s : σ} {t : τ}

include hwrite in
theorem set_of_related (h : R s t) (cache : Cache) (version stamp : UInt32) (m : Message)
    (now : Instant) :
    (cache.set device version stamp m now s).1 = (cache.set device version stamp m now t).1
      ∧ (cache.set device version stamp m now s).2.1 = (cache.set device version stamp m now t).2.1
      ∧ R (cache.set device version stamp m now s).2.2
        (cache.set device version stamp m now t).2.2 := by
  simp only [Cache.set]
  cases StampFile.capture version stamp m with
  | error error => exact ⟨rfl, rfl, h⟩
  | ok file =>
    obtain ⟨hanswer, hstate⟩ := hwrite s t file.render now h
    dsimp only
    generalize StampStore.write s device file.render now = first at hanswer hstate
    generalize StampStore.write t device file.render now = second at hanswer hstate
    obtain ⟨stored, s'⟩ := first
    obtain ⟨stored', t'⟩ := second
    obtain rfl : stored = stored' := hanswer
    cases stored <;> exact ⟨rfl, rfl, hstate⟩

include hread in
theorem reload_of_related (h : R s t) (cache : Cache) :
    (cache.reload device s).1 = (cache.reload device t).1
      ∧ R (cache.reload device s).2 (cache.reload device t).2 := by
  obtain ⟨hanswer, hstate⟩ := hread s t h
  simp only [Cache.reload]
  generalize StampStore.read s device = first at hanswer hstate
  generalize StampStore.read t device = second at hanswer hstate
  obtain ⟨fetched, s'⟩ := first
  obtain ⟨fetched', t'⟩ := second
  obtain rfl : fetched = fetched' := hanswer
  cases fetched with
  | failed => exact ⟨rfl, hstate⟩
  | absent => exact ⟨rfl, hstate⟩
  | contents octets =>
    dsimp only
    cases StampFile.ofOctets? octets <;> exact ⟨rfl, hstate⟩

include hread hwrite in
/-- A message of a device fares alike where stores of stamps answer alike. -/
theorem process_of_related (h : R s t) (cache : Cache) (m : Message) (now : Instant) :
    (cache.process device m now s).1 = (cache.process device m now t).1
      ∧ (cache.process device m now s).2.1 = (cache.process device m now t).2.1
      ∧ R (cache.process device m now s).2.2 (cache.process device m now t).2.2 := by
  simp only [Cache.process]
  cases m.stampUse with
  | none => exact ⟨rfl, rfl, h⟩
  | set version stamp =>
    obtain ⟨houtcome, hcache, hstate⟩ := set_of_related device hwrite h cache version stamp m now
    exact ⟨by simp only [houtcome], hcache, hstate⟩
  | apply stamp =>
    simp only [Cache.apply]
    cases cache.hits device stamp with
    | true => exact ⟨rfl, rfl, h⟩
    | false =>
      obtain ⟨hcache, hstate⟩ := reload_of_related device hread h cache
      simp only [Bool.false_eq_true, if_false, hcache]
      exact ⟨trivial, trivial, hstate⟩

end Messages

/-! ## Folders without temporary files -/

/-- There are no hidden files in a folder. -/
def Clean (folder : Folder) : Prop := ∀ name, Hidden name → folder.nodes.get? name = none

namespace Clean

variable {folder : Folder} {name : String}

theorem fresh (h : Clean folder) (name : String) (number : UInt64) :
    folder.nodes.get? (temporaryName name number) = none :=
  h _ (Store.hidden_temporaryName name number)

theorem replace (h : Clean folder) (hname : ¬ Hidden name) (contents : Octets) (now : Instant) :
    Clean (folder.replace name contents now).2 := by
  intro other hother
  have hne : other ≠ name := fun heq => hname (heq ▸ hother)
  rcases folder.replace_spec name contents now with ⟨-, -, hnodes⟩ | ⟨-, hnodes⟩
  · rw [hnodes, Table.get?_insert, if_neg hne]
    exact h other hother
  · rw [hnodes]
    exact h other hother

end Clean

theorem not_hidden_fileName {id : String} (h : EntityId.Valid id) : ¬ Hidden (fileName id) :=
  fun hhidden => h.not_hidden ((Store.hidden_fileName_iff h.ne_nil).mp hhidden)

/-! ## Snapshots -/

/-- A tree has the folders of all kinds in its root, and no temporary file is left over. -/
def ShowsSnapshots (s : SnapshotFiles Tree) (folders : Folders) : Prop :=
  ∀ kind, EntityId.Valid kind →
    s.files.folder (s.root ++ [kind]) = folders.folder kind ∧ Clean (folders.folder kind)

namespace ShowsSnapshots

variable {s : SnapshotFiles Tree} {folders : Folders} {kind id : String}

theorem read (h : ShowsSnapshots s folders) (kind id : String) :
    (Backend.read s kind id).1 = (Backend.read folders kind id).1
      ∧ ShowsSnapshots (Backend.read s kind id).2 (Backend.read folders kind id).2 := by
  rw [Folders.snd_read]
  by_cases hvalid : EntityId.Valid kind ∧ EntityId.Valid id
  · obtain ⟨hkind, hid⟩ := hvalid
    rw [s.read_of_valid hkind hid, Tree.read_concat (name_fileName hid), (h kind hkind).1]
    refine ⟨?_, h⟩
    simp only [Backend.read, withId, if_pos hkind, if_pos hid]
    cases (folders.folder kind).read (fileName id) <;> rfl
  · rw [s.read_of_not_valid hvalid]
    refine ⟨?_, h⟩
    simp only [Backend.read, withId]
    by_cases hkind : EntityId.Valid kind
    · rw [if_pos hkind, if_pos hkind, if_neg fun hid => hvalid ⟨hkind, hid⟩]
    · rw [if_neg hkind, if_neg hkind]

theorem write (h : ShowsSnapshots s folders) (kind id : String) (contents : Octets)
    (now : Instant) :
    (Backend.write s kind id contents now).1 = (Backend.write folders kind id contents now).1
      ∧ ShowsSnapshots (Backend.write s kind id contents now).2
        (Backend.write folders kind id contents now).2 := by
  by_cases hvalid : EntityId.Valid kind ∧ EntityId.Valid id
  · obtain ⟨hkind, hid⟩ := hvalid
    obtain ⟨hfolder, hclean⟩ := h kind hkind
    have hfresh := hclean.fresh (fileName id) (s.files.numbers 0)
    rw [← hfolder] at hfresh
    obtain ⟨hanswer, hdiffers⟩ := Tree.replaceFile_eq (name_fileName hid) hfresh contents now
    have hwrite : Backend.write folders kind id contents now
        = (if ((folders.folder kind).replace (fileName id) contents now).1 then .ok ()
            else .error .io,
          ⟨folders.kinds.insert kind
            ((folders.folder kind).replace (fileName id) contents now).2⟩) := by
      simp only [Backend.write, withId, if_pos hkind, if_pos hid]
    have hshows : ShowsSnapshots
        { s with files :=
          (replaceFile s.files (s.root ++ [kind] ++ [fileName id]) contents now).2 }
        ⟨folders.kinds.insert kind
          ((folders.folder kind).replace (fileName id) contents now).2⟩ := by
      intro other hother
      rw [hdiffers (s.root ++ [other]), hfolder, Folders.folder_insert]
      by_cases heq : other = kind
      · rw [if_pos heq, if_pos (congrArg (fun name => s.root ++ [name]) heq)]
        exact ⟨rfl, hclean.replace (not_hidden_fileName hid) contents now⟩
      · have hne : s.root ++ [other] ≠ s.root ++ [kind] := fun happend =>
          heq (List.singleton_inj.mp (List.append_cancel_left happend))
        rw [if_neg heq, if_neg hne]
        exact h other hother
    rw [s.write_of_valid hkind hid, hwrite, hanswer, hfolder]
    exact ⟨rfl, hshows⟩
  · rw [s.write_of_not_valid hvalid]
    simp only [Backend.write, withId]
    by_cases hkind : EntityId.Valid kind
    · rw [if_pos hkind, if_pos hkind, if_neg fun hid => hvalid ⟨hkind, hid⟩]
      exact ⟨rfl, h⟩
    · rw [if_neg hkind, if_neg hkind]
      exact ⟨rfl, h⟩

theorem list (h : ShowsSnapshots s folders) (kind : String) :
    (Backend.list s kind).1 = (Backend.list folders kind).1
      ∧ ShowsSnapshots (Backend.list s kind).2 (Backend.list folders kind).2 := by
  by_cases hkind : EntityId.Valid kind
  · rw [s.list_of_valid hkind]
    simp only [Backend.list, withId, if_pos hkind, FileSystem.list, (h kind hkind).1]
    refine ⟨?_, h⟩
    cases folders.folder kind with
    | missing => simp [listAnswer, Folders.listings, Folder.nodes, Table.empty, sortById]
    | blocked => rfl
    | entries nodes =>
      simp only [listAnswer, Folders.listings, Folder.nodes, List.filterMap_map]
      congr 2
      refine congrArg (List.filterMap · nodes.entries) (funext fun entry => ?_)
      obtain ⟨name, node⟩ := entry
      simp only [Function.comp_apply]
      cases documentOf? name <;> cases node <;> rfl
  · rw [s.list_of_not_valid hkind]
    simp only [Backend.list, withId, if_neg hkind]
    exact ⟨trivial, h⟩

end ShowsSnapshots

/-- A call merges its update into a snapshot in a tree as it does in folders. -/
theorem ShowsSnapshots.run {α : Type} [Mergeable α] {s : SnapshotFiles Tree} {folders : Folders}
    (h : ShowsSnapshots s folders) (call : Call α) (now : Instant) :
    (call.run now s).1 = (call.run now folders).1
      ∧ ShowsSnapshots (call.run now s).2 (call.run now folders).2 :=
  finish_of_related call now (fun _ _ h => h.read _ _)
    (fun _ _ contents h => h.write _ _ contents now) call.start h

/-! ## Stamps -/

/-- A tree has a folder in the place of the folder of stamps, and no temporary file is left over. -/
def ShowsStamps (s : StampFiles Tree) (folder : Folder) : Prop :=
  s.files.folder s.folder = folder ∧ Clean folder

namespace ShowsStamps

variable {s : StampFiles Tree} {folder : Folder} {device : String}

theorem read (h : ShowsStamps s folder) (device : String) :
    (StampStore.read s device).1 = (StampStore.read folder device).1
      ∧ ShowsStamps (StampStore.read s device).2 (StampStore.read folder device).2 := by
  by_cases hdevice : EntityId.Valid device
  · rw [s.read_of_valid hdevice, Tree.read_concat (name_fileName hdevice), h.1]
    exact ⟨(if_pos hdevice).symm, h⟩
  · rw [s.read_of_not_valid hdevice]
    exact ⟨(if_neg hdevice).symm, h⟩

theorem write (h : ShowsStamps s folder) (device : String) (contents : Octets) (now : Instant) :
    (StampStore.write s device contents now).1 = (StampStore.write folder device contents now).1
      ∧ ShowsStamps (StampStore.write s device contents now).2
        (StampStore.write folder device contents now).2 := by
  rw [Stamp.write_folder]
  by_cases hdevice : EntityId.Valid device
  · obtain ⟨hfolder, hclean⟩ := h
    have hfresh := hclean.fresh (fileName device) (s.files.numbers 0)
    rw [← hfolder] at hfresh
    obtain ⟨hanswer, hdiffers⟩ := Tree.replaceFile_eq (name_fileName hdevice) hfresh contents now
    rw [hfolder] at hanswer hdiffers
    rw [s.write_of_valid hdevice, if_pos hdevice]
    exact ⟨hanswer, hdiffers.folder_eq,
      hclean.replace (not_hidden_fileName hdevice) contents now⟩
  · rw [s.write_of_not_valid hdevice, if_neg hdevice]
    exact ⟨rfl, h⟩

/-- What becomes of a message does not depend on where the folder of stamps is. -/
theorem process (h : ShowsStamps s folder) (cache : Cache) (device : String) (m : Message)
    (now : Instant) :
    (cache.process device m now s).1 = (cache.process device m now folder).1
      ∧ (cache.process device m now s).2.1 = (cache.process device m now folder).2.1
      ∧ ShowsStamps (cache.process device m now s).2.2 (cache.process device m now folder).2.2 :=
  process_of_related device (fun _ _ h => h.read device)
    (fun _ _ contents now h => h.write device contents now) h cache m now

end ShowsStamps

end FieldTelemetry.Files
