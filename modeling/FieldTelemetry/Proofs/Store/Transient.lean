import FieldTelemetry.Proofs.Stamp.Storage
import FieldTelemetry.Store.Backend

/-!
# Stores with transient faults

Seen from one entity, a store with transient faults has contents: a read fails or answers them, and
a write fails and leaves them, or replaces them as a whole. Memory and folders are such stores,
whatever they hold, and so is memory with faults that make operations fail.

## Main definitions

* `Transient`: a store with transient faults, as an entity sees it
* `Transient.Reliable`: a store whose operations do not fail
* `Memory.transient`, `Folders.transient`, `Faulty.transient`: such stores
-/

namespace FieldTelemetry.Store

open Time (Instant)

/-- A store with transient faults, as an entity sees it. -/
structure Transient (σ : Type) [Backend σ] (kind id : String) where
  /-- The store is in a state from which on its faults are transient. -/
  Steady : σ → Prop
  /-- What is stored for the entity. -/
  contents : σ → Option Octets
  /-- Reading leaves the store in such a state. -/
  steady_read : ∀ {state}, Steady state → Steady (Backend.read state kind id).2
  /-- Reading leaves the contents. -/
  contents_read : ∀ {state}, Steady state →
    contents (Backend.read state kind id).2 = contents state
  /-- A read that does not fail answers the contents. -/
  read_ok : ∀ {state text}, Steady state → (Backend.read state kind id).1 = .ok text →
    text = contents state
  /-- Writing leaves the store in such a state. -/
  steady_write : ∀ {state} octets now, Steady state →
    Steady (Backend.write state kind id octets now).2
  /-- A write that does not fail replaces the contents. -/
  write_ok : ∀ {state octets now}, Steady state →
    (Backend.write state kind id octets now).1 = .ok () →
      contents (Backend.write state kind id octets now).2 = some octets
  /-- A write that fails leaves the contents. -/
  write_error : ∀ {state octets now error}, Steady state →
    (Backend.write state kind id octets now).1 = .error error →
      contents (Backend.write state kind id octets now).2 = contents state

/-- A store whose operations do not fail. -/
structure Transient.Reliable {σ : Type} [Backend σ] {kind id : String}
    (view : Transient σ kind id) : Prop where
  /-- Reads do not fail. -/
  read : ∀ {state error}, view.Steady state → (Backend.read state kind id).1 ≠ .error error
  /-- Writes do not fail. -/
  write : ∀ {state octets now error}, view.Steady state →
    (Backend.write state kind id octets now).1 ≠ .error error

variable {kind id : String}

namespace Transient.Reliable

variable {σ : Type} [Backend σ] {view : Transient σ kind id} {state : σ}

/-- A read answers the contents. -/
theorem read_eq (h : view.Reliable) (hsteady : view.Steady state) :
    (Backend.read state kind id).1 = .ok (view.contents state) := by
  cases hread : (Backend.read state kind id).1 with
  | error error => exact absurd hread (h.read hsteady)
  | ok text => rw [view.read_ok hsteady hread]

/-- A write succeeds. -/
theorem write_eq (h : view.Reliable) (hsteady : view.Steady state) (octets : Octets)
    (now : Instant) : (Backend.write state kind id octets now).1 = .ok () := by
  cases hwrite : (Backend.write state kind id octets now).1 with
  | error error => exact absurd hwrite (h.write hsteady)
  | ok => rfl

end Transient.Reliable

/-! ## Memory -/

namespace Memory

/-- Memory as an entity sees it. -/
def transient (kind id : String) : Transient Memory kind id where
  Steady _ := True
  contents memory := (memory.snapshots.get? (kind, id)).map Prod.fst
  steady_read _ := trivial
  contents_read {memory} _ := by
    simp only [Backend.read, withId]
    split <;> rfl
  read_ok {memory text} _ h := by
    simp only [Backend.read, withId] at h
    split at h <;> cases h
    rfl
  steady_write _ _ _ := trivial
  write_ok {memory octets now} _ h := by
    simp only [Backend.write, withId] at h ⊢
    split at h
    · rename_i hid
      rw [if_pos hid, Table.get?_insert, if_pos rfl]
      rfl
    · cases h
  write_error {memory octets now error} _ h := by
    simp only [Backend.write, withId] at h ⊢
    split at h
    · cases h
    · rename_i hid
      rw [if_neg hid]

/-- Operations on an entity with an id do not fail in memory. -/
theorem reliable_transient (hid : EntityId.Valid id) : (transient kind id).Reliable where
  read {memory error} _ := by simp [Backend.read, withId, hid]
  write {memory octets now error} _ := by simp [Backend.write, withId, hid]

end Memory

/-! ## Faults -/

namespace Faulty

/-- The faults of a memory make operations fail, and do nothing else. -/
structure OnlyFails (faulty : Faulty) : Prop where
  /-- Faults of reads. -/
  reads : ∀ fault ∈ faulty.reads, fault = .none ∨ fault = .fails
  /-- Faults of writes. -/
  writes : ∀ fault ∈ faulty.writes, fault = .none ∨ fault = .fails

variable {faulty : Faulty}

theorem headD_cases {α : Type} {none fails : α} {faults : List α}
    (h : ∀ fault ∈ faults, fault = none ∨ fault = fails) :
    faults.headD none = none ∨ faults.headD none = fails := by
  cases faults with
  | nil => exact .inl rfl
  | cons fault faults => exact h fault List.mem_cons_self

/-- A read fails or is one of the memory. -/
theorem read_cases (h : faulty.OnlyFails) (kind id : String) :
    Backend.read faulty kind id = (.error .io, { faulty with reads := faulty.reads.tail })
      ∨ Backend.read faulty kind id = { faulty with reads := faulty.reads.tail }.withMemory
          (Backend.read faulty.memory kind id) := by
  rcases headD_cases h.reads with hhead | hhead
  · exact .inr (by simp only [Backend.read, hhead])
  · exact .inl (by simp only [Backend.read, hhead])

/-- A write fails or is one of the memory. -/
theorem write_cases (h : faulty.OnlyFails) (kind id : String) (octets : Octets) (now : Instant) :
    Backend.write faulty kind id octets now
        = (.error .io, { faulty with writes := faulty.writes.tail })
      ∨ Backend.write faulty kind id octets now
        = { faulty with writes := faulty.writes.tail }.withMemory
          (Backend.write faulty.memory kind id octets now) := by
  rcases headD_cases h.writes with hhead | hhead
  · exact .inr (by simp only [Backend.write, hhead])
  · exact .inl (by simp only [Backend.write, hhead])

theorem OnlyFails.tail_reads (h : faulty.OnlyFails) (memory : Memory) :
    { faulty with memory, reads := faulty.reads.tail }.OnlyFails :=
  ⟨fun fault hfault => h.reads fault (List.mem_of_mem_tail hfault), h.writes⟩

theorem OnlyFails.tail_writes (h : faulty.OnlyFails) (memory : Memory) :
    { faulty with memory, writes := faulty.writes.tail }.OnlyFails :=
  ⟨h.reads, fun fault hfault => h.writes fault (List.mem_of_mem_tail hfault)⟩

/-- Memory with faults that make operations fail, as an entity sees it. -/
def transient (kind id : String) : Transient Faulty kind id where
  Steady := OnlyFails
  contents faulty := (Memory.transient kind id).contents faulty.memory
  steady_read h := by
    rcases read_cases h kind id with hread | hread
    · rw [hread]
      exact h.tail_reads _
    · rw [hread]
      exact h.tail_reads _
  contents_read h := by
    rcases read_cases h kind id with hread | hread
    · rw [hread]
    · rw [hread]
      exact (Memory.transient kind id).contents_read trivial
  read_ok h hok := by
    rcases read_cases h kind id with hread | hread
    · rw [hread] at hok
      cases hok
    · rw [hread] at hok
      exact (Memory.transient kind id).read_ok trivial hok
  steady_write octets now h := by
    rcases write_cases h kind id octets now with hwrite | hwrite
    · rw [hwrite]
      exact h.tail_writes _
    · rw [hwrite]
      exact h.tail_writes _
  write_ok {faulty octets now} h hok := by
    rcases write_cases h kind id octets now with hwrite | hwrite
    · rw [hwrite] at hok
      cases hok
    · rw [hwrite] at hok ⊢
      exact (Memory.transient kind id).write_ok trivial hok
  write_error {faulty octets now error} h herror := by
    rcases write_cases h kind id octets now with hwrite | hwrite
    · rw [hwrite]
    · rw [hwrite] at herror ⊢
      exact (Memory.transient kind id).write_error trivial herror

end Faulty

/-! ## Folders -/

namespace Folders

/-- A write replaces a file, when the entity and its kind have names for files. -/
theorem write_cases (folders : Folders) (kind id : String) (octets : Octets) (now : Instant) :
    Backend.write folders kind id octets now = (.error (.invalidId kind), folders)
      ∨ Backend.write folders kind id octets now = (.error (.invalidId id), folders)
      ∨ Backend.write folders kind id octets now
        = (if ((folders.folder kind).replace (fileName id) octets now).1 then .ok ()
            else .error .io,
          ⟨folders.kinds.insert kind ((folders.folder kind).replace (fileName id) octets now).2⟩)
      := by
  simp only [Backend.write, withId]
  split
  · split
    · exact .inr (.inr rfl)
    · exact .inr (.inl rfl)
  · exact .inl rfl

/-- The contents of the file of an entity after a write to it. -/
theorem contents?_insert (folders : Folders) (kind id : String) (octets : Octets) (now : Instant) :
    ((⟨folders.kinds.insert kind ((folders.folder kind).replace (fileName id) octets now).2⟩
        : Folders).folder kind).contents? (fileName id)
      = if ((folders.folder kind).replace (fileName id) octets now).1 then some octets
        else (folders.folder kind).contents? (fileName id) := by
  rw [folder, Table.get?_insert, if_pos rfl, Option.getD_some, Folder.contents?_replace]
  simp only [and_true]

/-- Snapshots in folders, as an entity sees them: what else is in the folders does not matter. -/
def transient (kind id : String) : Transient Folders kind id where
  Steady _ := True
  contents folders := (folders.folder kind).contents? (fileName id)
  steady_read _ := trivial
  contents_read {folders} _ := by
    simp only [Backend.read, withId]
    split <;> try split
    all_goals rfl
  read_ok {folders text} _ h := by
    simp only [Backend.read, withId] at h
    split at h <;> try split at h
    · rw [Folder.contents?]
      split at h <;> cases h <;> simp [*]
    · cases h
    · cases h
  steady_write _ _ _ := trivial
  write_ok {folders octets now} _ h := by
    rcases write_cases folders kind id octets now with hwrite | hwrite | hwrite
    · rw [hwrite] at h
      cases h
    · rw [hwrite] at h
      cases h
    · rw [hwrite] at h ⊢
      rw [contents?_insert]
      split at h
      · rename_i hstored
        rw [if_pos hstored]
      · cases h
  write_error {folders octets now error} _ h := by
    rcases write_cases folders kind id octets now with hwrite | hwrite | hwrite
    · rw [hwrite]
    · rw [hwrite]
    · rw [hwrite] at h ⊢
      rw [contents?_insert]
      split at h
      · cases h
      · rename_i hfailed
        rw [if_neg hfailed]

end Folders

end FieldTelemetry.Store
