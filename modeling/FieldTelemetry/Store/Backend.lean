import FieldTelemetry.Store.EntityId
import FieldTelemetry.Store.Error
import FieldTelemetry.Store.Folder

/-!
# Backends

A backend keeps the snapshots of every kind of entities as texts. One keeps them in memory, one in
the folders of a file system, and one is in memory and fails as it is told to.

## Main definitions

* `Backend`: the operations of a backend
* `Memory`, `Folders`, `Faulty`: the backends
* `Listing`: what a backend lists
-/

namespace FieldTelemetry.Store

open Time (Instant)

/-- A snapshot that a backend has, with the time when it was written. -/
structure Listing where
  /-- The id of the entity. -/
  id : String
  /-- When it was written. -/
  modified : Instant
deriving DecidableEq

/-- The operations of a backend on its state. Snapshots have a kind and an id. -/
class Backend (σ : Type) where
  /-- The text of a snapshot, if there is one. -/
  read : σ → (kind id : String) → Except StoreError (Option Octets) × σ
  /-- Another text for a snapshot. -/
  write : σ → (kind id : String) → Octets → Instant → Except StoreError Unit × σ
  /-- All snapshots of a kind, in the order of their ids. -/
  list : σ → (kind : String) → Except StoreError (List Listing) × σ

/-- Something is done for texts that are ids. -/
def withId {α σ : Type} (id : String) (state : σ) (action : Except StoreError α × σ) :
    Except StoreError α × σ :=
  if EntityId.Valid id then action else (.error (.invalidId id), state)

/-- Listings in the order of their ids. -/
def sortById (listings : List Listing) : List Listing := listings.mergeSort fun a b => a.id ≤ b.id

/-! ## In memory -/

/-- Snapshots in memory, by kind and id, each with the time when it was written. -/
structure Memory where
  /-- The snapshots. -/
  snapshots : Table (String × String) (Octets × Instant)

namespace Memory

instance : Inhabited Memory := ⟨⟨.empty⟩⟩

/-- The snapshots of a kind. -/
def ofKind (memory : Memory) (kind : String) : List Listing :=
  memory.snapshots.entries.filterMap fun ((k, id), (_, modified)) =>
    if k = kind then some ⟨id, modified⟩ else none

instance : Backend Memory where
  read memory kind id :=
    withId id memory (.ok ((memory.snapshots.get? (kind, id)).map Prod.fst), memory)
  write memory kind id octets now :=
    withId id memory (.ok (), ⟨memory.snapshots.insert (kind, id) (octets, now)⟩)
  list memory kind := (.ok (sortById (memory.ofKind kind)), memory)

end Memory

/-! ## In folders -/

/-- Snapshots in folders, one for every kind. -/
structure Folders where
  /-- The folders by kind. -/
  kinds : Table String Folder

namespace Folders

instance : Inhabited Folders := ⟨⟨.empty⟩⟩

/-- The folder of a kind. -/
def folder (folders : Folders) (kind : String) : Folder := (folders.kinds.get? kind).getD .missing

/-- The snapshots in a folder. -/
def listings (folder : Folder) : List Listing :=
  folder.nodes.entries.filterMap fun (name, node) => do
    let id ← documentOf? name
    match node with
    | .file _ modified => some ⟨id, modified⟩
    -- A folder with the name of a document is listed, though it cannot be read.
    | .folder => some ⟨id, .epoch⟩

instance : Backend Folders where
  read folders kind id :=
    -- A kind is the name of a folder and an id that of a file: both are checked.
    withId kind folders <| withId id folders
      (match (folders.folder kind).read (fileName id) with
        | .failed => .error .io
        | .absent => .ok none
        | .contents octets => .ok (some octets), folders)
  write folders kind id octets now :=
    withId kind folders <| withId id folders <|
      let (stored, folder) := (folders.folder kind).replace (fileName id) octets now
      (if stored then .ok () else .error .io, ⟨folders.kinds.insert kind folder⟩)
  list folders kind :=
    withId kind folders
      (match folders.folder kind with
        | .blocked => .error .io
        | folder => .ok (sortById (listings folder)), folders)

end Folders

/-! ## With faults -/

/-- What happens to a read. -/
inductive ReadFault
  /-- Nothing. -/
  | none
  /-- It fails. -/
  | fails
  /-- There seems to be nothing. -/
  | absent
  /-- Other octets are read. -/
  | reads (octets : Octets)
deriving DecidableEq

/-- What happens to a write. -/
inductive WriteFault
  /-- Nothing. -/
  | none
  /-- It fails. -/
  | fails
  /-- It seems to succeed, and nothing is written. -/
  | lost
  /-- Nothing but the first octets are written, half of them. -/
  | tears
  /-- No octets are written. -/
  | empties
deriving DecidableEq

/-- A backend in memory with the faults of its next operations. -/
structure Faulty where
  /-- The backend. -/
  memory : Memory
  /-- Faults of reads. -/
  reads : List ReadFault := []
  /-- Faults of writes. -/
  writes : List WriteFault := []
  /-- Faults of listings: whether they fail. -/
  lists : List Bool := []

namespace Faulty

/-- The state after an operation on the memory. -/
def withMemory {α : Type} (faulty : Faulty) :
    Except StoreError α × Memory → Except StoreError α × Faulty
  | (answer, memory) => (answer, { faulty with memory })

instance : Backend Faulty where
  read faulty kind id :=
    let faulty' := { faulty with reads := faulty.reads.tail }
    match faulty.reads.headD .none with
    | .none => faulty'.withMemory (Backend.read faulty.memory kind id)
    | .fails => (.error .io, faulty')
    | .absent => (.ok none, faulty')
    | .reads octets => (.ok (some octets), faulty')
  write faulty kind id octets now :=
    let faulty' := { faulty with writes := faulty.writes.tail }
    match faulty.writes.headD .none with
    | .none => faulty'.withMemory (Backend.write faulty.memory kind id octets now)
    | .fails => (.error .io, faulty')
    | .lost => (.ok (), faulty')
    | .tears =>
      faulty'.withMemory (Backend.write faulty.memory kind id (octets.take (octets.length / 2)) now)
    | .empties => faulty'.withMemory (Backend.write faulty.memory kind id [] now)
  list faulty kind :=
    let faulty' := { faulty with lists := faulty.lists.tail }
    if faulty.lists.headD false then (.error .io, faulty')
    else faulty'.withMemory (Backend.list faulty.memory kind)

end Faulty

end FieldTelemetry.Store
