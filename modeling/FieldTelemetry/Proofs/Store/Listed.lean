import FieldTelemetry.Proofs.Store.Endings
import FieldTelemetry.Proofs.Store.Interchange
import FieldTelemetry.Proofs.Store.Redelivery

/-!
# What others see

Collectors that share folders see the entities of each other in the listing of a kind. An entity
whose update was merged is in it, with the time of the call. When there is room for its file,
nothing can go wrong but its id.

## Main definitions

* `Folders.Listed`: an entity that others see in the folders
* `Folder.Roomy`: there is room for a file of a name
* `Folders.roomy`: snapshots in folders with room for the file of an entity

## Main results

* `Folders.listed_of_run_eq_ok`: an entity whose update was merged is listed
* `Folders.reliable_roomy`: reads and writes do not fail where there is room
-/

namespace FieldTelemetry.Store

open Time (Instant)

/-! ## Listings -/

namespace Folders

/-- The file of an entity was written at an instant. -/
def Dated (folders : Folders) (kind id : String) (now : Instant) : Prop :=
  ∃ octets, (folders.folder kind).nodes.get? (fileName id) = some (.file octets now)

/-- Others that list the entities of a kind find this one, with the instant when it was written. -/
def Listed (folders : Folders) (kind id : String) (now : Instant) : Prop :=
  ∃ listings, (Backend.list folders kind).1 = .ok listings ∧ ⟨id, now⟩ ∈ listings

variable {folders : Folders} {kind id : String} {now : Instant}

theorem snd_read (folders : Folders) (kind id : String) :
    (Backend.read folders kind id).2 = folders := by
  simp only [Backend.read, withId]
  split <;> try split
  all_goals rfl

theorem dated_write {octets : Octets}
    (h : (Backend.write folders kind id octets now).1 = .ok ()) :
    (Backend.write folders kind id octets now).2.Dated kind id now := by
  rcases write_cases folders kind id octets now with hwrite | hwrite | hwrite
  · rw [hwrite] at h
    cases h
  · rw [hwrite] at h
    cases h
  · rw [hwrite] at h ⊢
    rcases (folders.folder kind).replace_spec (fileName id) octets now with
      ⟨-, -, hnodes⟩ | ⟨hfailed, -⟩
    · refine ⟨octets, ?_⟩
      rw [folder, Table.get?_insert, if_pos rfl, Option.getD_some, hnodes, Table.get?_insert,
        if_pos rfl]
    · simp [hfailed] at h

theorem Dated.listed (h : folders.Dated kind id now) (hkind : EntityId.Valid kind)
    (hid : EntityId.Valid id) : folders.Listed kind id now := by
  obtain ⟨octets, hfile⟩ := h
  have hmem : (⟨id, now⟩ : Listing) ∈ listings (folders.folder kind) := by
    rw [listings, List.mem_filterMap]
    exact ⟨(fileName id, .file octets now), Table.mem_entries_iff.mpr hfile, by
      simp [documentOf?_fileName hid]⟩
  have hlist : (Backend.list folders kind).1
      = .ok (sortById (listings (folders.folder kind))) := by
    simp only [Backend.list, withId, if_pos hkind]
    -- There is a file, so no file stands in the place of the folder.
    cases hfolder : folders.folder kind with
    | blocked =>
      rw [hfolder] at hfile
      cases hfile
    | _ => rfl
  exact ⟨_, hlist, by rwa [sortById, List.mem_mergeSort]⟩

section Calls

variable {α : Type} [Mergeable α] (call : Call α) (now : Instant)

/-- The file has been written from the phase on in which it is read again. -/
def WrittenBy (call : Call α) (now : Instant) : Phase α → Folders → Prop
  | .verifying _ _, folders | .done (.ok _), folders => folders.Dated call.kind.name call.id now
  | _, _ => True

omit [Mergeable α] in
theorem writtenBy_begin (left : Nat) (folders : Folders) :
    WrittenBy call now (call.begin left) folders := by
  cases left <;> trivial

theorem writtenBy_step (phase : Phase α) (folders : Folders)
    (h : WrittenBy call now phase folders) :
    WrittenBy call now (call.step now phase folders).1 (call.step now phase folders).2 := by
  cases phase with
  | reading more =>
    rw [Call.step]
    split
    · exact writtenBy_begin call now more _
    · trivial
  | writing more s =>
    have hdated : (Backend.write folders call.kind.name call.id s.render now).1 = .ok () →
        (Backend.write folders call.kind.name call.id s.render now).2.Dated call.kind.name call.id
          now := dated_write
    rw [Call.step]
    split
    · exact writtenBy_begin call now more _
    · rename_i hwrite
      rw [hwrite] at hdated
      exact hdated rfl
  | verifying more s =>
    have hread := snd_read folders call.kind.name call.id
    rw [Call.step]
    dsimp only
    rw [hread]
    split
    · exact h
    · exact writtenBy_begin call now more folders
  | done result => exact h

/-- An entity whose update was merged is listed with the time of the call. -/
theorem listed_of_run_eq_ok (hkind : EntityId.Valid call.kind.name) {s : Snapshot α}
    (hok : (call.run now folders).1 = .ok s) :
    (call.run now folders).2.Listed call.kind.name call.id now := by
  have hid : EntityId.Valid call.id := by
    by_contra hid
    rw [call.run_of_not_valid now hid] at hok
    cases hok
  have hwritten := call.finish_preserves now (writtenBy_step call now) _ folders
    (writtenBy_begin call now call.attempts folders)
  rw [Call.run, Call.start, if_pos hid] at hok ⊢
  rw [hok] at hwritten
  exact Dated.listed hwritten hkind hid

end Calls

end Folders

/-! ## Folders with room -/

/-- A file of a name can be written and read: there is no file in the place of the folder and no
folder in the place of the file, and the name is not too long. -/
structure Folder.Roomy (folder : Folder) (name : String) : Prop where
  /-- No file stands in the place of the folder. -/
  unblocked : folder ≠ .blocked
  /-- No folder stands in the place of the file. -/
  free : folder.nodes.get? name ≠ some .folder
  /-- The name of the temporary file is not too long. -/
  short : temporarySize name ≤ nameLimit

namespace Folder.Roomy

variable {folder : Folder} {name : String}

theorem replace_eq (h : folder.Roomy name) (octets : Octets) (now : Instant) :
    folder.replace name octets now
      = (true, .entries (folder.nodes.insert name (.file octets now))) := by
  obtain ⟨hunblocked, hfree, hshort⟩ := h
  cases folder with
  | blocked => exact absurd rfl hunblocked
  | _ =>
    rw [Folder.replace]
    split
    · rename_i hnode
      exact absurd hnode hfree
    · exact if_pos hshort

theorem read_ne_failed (h : folder.Roomy name) : folder.read name ≠ .failed := by
  obtain ⟨hunblocked, hfree, hshort⟩ := h
  cases folder with
  | blocked => exact absurd rfl hunblocked
  | missing => rintro ⟨⟩
  | entries nodes =>
    have hlength : ¬ nameLimit < name.utf8ByteSize := by
      rw [temporarySize] at hshort
      omega
    rw [Folder.read, if_neg hlength]
    split
    · rintro ⟨⟩
    · rintro ⟨⟩
    · rename_i hnode
      exact absurd hnode hfree

theorem replace (h : folder.Roomy name) (octets : Octets) (now : Instant) :
    (folder.replace name octets now).2.Roomy name where
  unblocked := by
    rw [h.replace_eq]
    rintro ⟨⟩
  free := by
    rw [h.replace_eq, nodes, Table.get?_insert, if_pos rfl]
    rintro ⟨⟩
  short := h.short

end Folder.Roomy

namespace Folders

/-- Snapshots in folders with room for the file of an entity, as the entity sees them. -/
def roomy (kind id : String) : Transient Folders kind id :=
  { transient kind id with
    Steady := fun folders => (folders.folder kind).Roomy (fileName id)
    steady_read := fun {folders} h => by
      rw [snd_read]
      exact h
    steady_write := fun {folders} octets now h => by
      rcases write_cases folders kind id octets now with hwrite | hwrite | hwrite
      · rw [hwrite]
        exact h
      · rw [hwrite]
        exact h
      · rw [hwrite, folder, Table.get?_insert, if_pos rfl]
        exact h.replace octets now
    contents_read := fun _ => (transient kind id).contents_read trivial
    read_ok := fun _ => (transient kind id).read_ok trivial
    write_ok := fun _ => (transient kind id).write_ok trivial
    write_error := fun _ => (transient kind id).write_error trivial }

theorem reliable_roomy {kind id : String} (hkind : EntityId.Valid kind)
    (hid : EntityId.Valid id) : (roomy kind id).Reliable where
  read {folders error} h := by
    have hread := Folder.Roomy.read_ne_failed h
    simp only [Backend.read, withId, if_pos hkind, if_pos hid]
    split
    · contradiction
    · rintro ⟨⟩
    · rintro ⟨⟩
  write {folders octets now error} h := by
    simp only [Backend.write, withId, if_pos hkind, if_pos hid]
    rw [Folder.Roomy.replace_eq h]
    rintro ⟨⟩

end Folders

end FieldTelemetry.Store
