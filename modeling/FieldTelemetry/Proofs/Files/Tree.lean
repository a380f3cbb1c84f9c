import FieldTelemetry.Proofs.Files.FileSystem
import FieldTelemetry.Proofs.Stamp.Storage

/-!
# Trees of folders

Where paths lead to folders of files, a replacement by way of a temporary file does what it does at
once in one folder.

## Main definitions

* `Tree`: folders by their paths, as a file system
* `Tree.Differs`: another tree has another folder at a path

## Main results

* `Tree.replaceFile_eq`: a replacement by way of a temporary file is one at once
-/

namespace FieldTelemetry

namespace Table

variable {κ α : Type} [DecidableEq κ]

theorem filter_put {key : κ} {entries : List (κ × α)} (h : find? key entries = none) (value : α) :
    (put key value entries).filter (·.1 ≠ key) = entries := by
  induction entries with
  | nil => simp [put]
  | cons entry entries ih =>
    obtain ⟨k, a⟩ := entry
    by_cases hk : k = key
    · simp [find?, hk] at h
    · simp only [find?, hk, if_false] at h
      simpa [put, hk] using ih h

/-- A key that is put into a table and taken out again leaves no trace. -/
theorem erase_insert {table : Table κ α} {key : κ} (h : table.get? key = none) (value : α) :
    (table.insert key value).erase key = table := by
  obtain ⟨entries, hnodup⟩ := table
  simp only [erase, insert]
  congr 1
  exact filter_put h value

end Table

namespace Files

open Store (Folder Node nameLimit temporaryName temporarySize)
open Time (Instant)

/-! ## Trees -/

/-- Folders by their paths. -/
structure Tree where
  /-- The folders, and what stands in their places. -/
  folders : Table Path Folder
  /-- The random numbers to come. -/
  numbers : Nat → UInt64

/-- The folder and the name of what is at a path. -/
def place? (path : Path) : Option (Path × String) := do
  return (← path.parent?, ← path.name?)

/-- A file may get a name in a folder. The name is not too long, and there is no folder with it. -/
def takesFile (nodes : Table String Node) (name : String) : Bool :=
  name.utf8ByteSize ≤ nameLimit &&
    match nodes.get? name with
    | some .folder => false
    | _ => true

/-- When an entry was written. -/
def modifiedAt : Node → Instant
  | .file _ modified => modified
  | .folder => .epoch

namespace Tree

/-- The folder at a path. -/
def folder (tree : Tree) (path : Path) : Folder := (tree.folders.get? path).getD .missing

/-- The tree with another folder at a path. -/
def set (tree : Tree) (path : Path) (folder : Folder) : Tree :=
  { tree with folders := tree.folders.insert path folder }

/-- What is at a path. -/
def node? (tree : Tree) (path : Path) : Option Node := do
  let (folder, name) ← place? path
  (tree.folder folder).nodes.get? name

/-- A file may come to a path. -/
def takes (tree : Tree) (path : Path) : Bool :=
  match place? path with
  | none => false
  | some (folder, name) =>
    match tree.folder folder with
    | .missing | .blocked => false
    | .entries nodes => takesFile nodes name

/-- The tree with something at a path. -/
def put (tree : Tree) (path : Path) (node : Node) : Tree :=
  match place? path with
  | some (folder, name) => tree.set folder ((tree.folder folder).put name node)
  | none => tree

/-- The tree with nothing at a path. -/
def erase (tree : Tree) (path : Path) : Tree :=
  match place? path with
  | some (folder, name) => tree.set folder ((tree.folder folder).remove name)
  | none => tree

instance : FileSystem Tree where
  read tree path :=
    (match place? path with
      | some (folder, name) => (tree.folder folder).read name
      | none => .failed, tree)
  list tree path :=
    (match tree.folder path with
      | .missing => .absent
      | .blocked => .failed
      | .entries nodes => .entries (nodes.entries.map fun (name, node) => (name, modifiedAt node)),
      tree)
  makeFolder tree path :=
    match tree.folder path with
    | .missing => (true, tree.set path .empty)
    | .blocked => (false, tree)
    | .entries _ => (true, tree)
  write tree path contents now :=
    if tree.takes path then (true, tree.put path (.file contents now)) else (false, tree)
  rename tree source target :=
    match tree.node? source with
    | some (.file contents modified) =>
      if tree.takes target then (true, (tree.erase source).put target (.file contents modified))
      else (false, tree)
    | _ => (false, tree)
  remove tree path :=
    match tree.node? path with
    | some (.file _ _) => (true, tree.erase path)
    | _ => (false, tree)
  number tree := (tree.numbers 0, { tree with numbers := fun n => tree.numbers (n + 1) })

theorem folder_set (tree : Tree) (path other : Path) (folder : Folder) :
    (tree.set path folder).folder other = if other = path then folder else tree.folder other := by
  rw [Tree.folder, set, Table.get?_insert]
  split <;> rfl

end Tree

/-! ## Names in a folder -/

theorem place?_concat {name : String} (h : Name name) (path : Path) :
    place? (path ++ [name]) = some (path, name) := by
  rw [place?, h.parent?_concat, h.name?_concat]
  rfl

namespace Tree

variable {tree : Tree} {path : Path} {nodes : Table String Node} {name : String}

theorem read_concat (h : Name name) :
    FileSystem.read tree (path ++ [name]) = ((tree.folder path).read name, tree) := by
  simp only [FileSystem.read, place?_concat h]

theorem node?_concat (h : Name name) :
    tree.node? (path ++ [name]) = (tree.folder path).nodes.get? name := by
  rw [node?, place?_concat h]
  rfl

theorem takes_concat (h : Name name) (hnodes : tree.folder path = .entries nodes) :
    tree.takes (path ++ [name]) = takesFile nodes name := by
  simp only [takes, place?_concat h, hnodes]

theorem put_concat (h : Name name) (hnodes : tree.folder path = .entries nodes) (node : Node) :
    tree.put (path ++ [name]) node = tree.set path (.entries (nodes.insert name node)) := by
  simp only [put, place?_concat h, hnodes]
  rfl

theorem erase_concat (h : Name name) (hnodes : tree.folder path = .entries nodes) :
    tree.erase (path ++ [name]) = tree.set path (.entries (nodes.erase name)) := by
  simp only [erase, place?_concat h, hnodes]
  rfl

end Tree

/-! ## Replacing a file -/

theorem utf8Size_hexChar (d : Fin 16) : (Text.hexChar d).utf8Size = 1 := by
  revert d
  decide

theorem utf8Len_lastHexDigits (count n : Nat) (tail : List Char) :
    String.utf8Len (Text.lastHexDigits count n tail) = count + String.utf8Len tail := by
  induction count generalizing n tail with
  | zero => rw [Text.lastHexDigits, Nat.zero_add]
  | succ count ih =>
    rw [Text.lastHexDigits, ih, String.utf8Len_cons, utf8Size_hexChar]
    omega

theorem utf8ByteSize_temporaryName (name : String) (number : UInt64) :
    (temporaryName name number).utf8ByteSize = temporarySize name := by
  have hhex : (Text.paddedHex 16 number.toNat).utf8ByteSize = 16 := by
    rw [Text.paddedHex, String.utf8ByteSize_ofList, utf8Len_lastHexDigits]
    rfl
  simp only [temporaryName, String.utf8ByteSize_append, hhex, temporarySize]
  have hstop : ".".utf8ByteSize = 1 := rfl
  have hend : ".tmp".utf8ByteSize = 4 := rfl
  omega

theorem temporaryName_ne (name : String) (number : UInt64) : temporaryName name number ≠ name := by
  intro heq
  have hlength := congrArg (fun text => text.toList.length) heq
  simp only [toList_temporaryName, List.length_append, List.length_cons] at hlength
  omega

/-- A file is replaced in a folder if it may get both names. -/
theorem replace_entries_eq (nodes : Table String Node) (name : String) (contents : Octets)
    (now : Instant) : (Folder.entries nodes).replace name contents now
      = if takesFile nodes name ∧ temporarySize name ≤ nameLimit
        then (true, .entries (nodes.insert name (.file contents now)))
        else (false, .entries nodes) := by
  have hshort : temporarySize name ≤ nameLimit → name.utf8ByteSize ≤ nameLimit := by
    rw [temporarySize]
    omega
  simp only [Folder.replace, Folder.nodes, takesFile, Bool.and_eq_true, decide_eq_true_eq]
  by_cases hfits : temporarySize name ≤ nameLimit
  · cases nodes.get? name with
    | none => simp [hfits, hshort hfits]
    | some node => cases node <;> simp [hfits, hshort hfits]
  · cases nodes.get? name with
    | none => simp [hfits]
    | some node => cases node <;> simp [hfits]

namespace Tree

variable {tree : Tree} {path : Path} {nodes : Table String Node} {name : String}

/-- A file is renamed in its folder. -/
theorem rename_concat {source : String} (hsource : Name source) (hname : Name name)
    (hnodes : tree.folder path = .entries nodes) {contents : Octets}
    {modified : Instant} (hfile : nodes.get? source = some (.file contents modified)) :
    FileSystem.rename tree (path ++ [source]) (path ++ [name])
      = if takesFile nodes name then
          (true, (tree.set path (.entries (nodes.erase source))).set path
            (.entries ((nodes.erase source).insert name (.file contents modified))))
        else (false, tree) := by
  have hnode : tree.node? (path ++ [source]) = some (.file contents modified) := by
    rw [node?_concat hsource, hnodes]
    exact hfile
  have herased : (tree.set path (.entries (nodes.erase source))).folder path
      = .entries (nodes.erase source) := by
    rw [folder_set, if_pos rfl]
  simp only [FileSystem.rename, hnode, takes_concat hname hnodes, erase_concat hsource hnodes,
    put_concat hname herased]

/-- A file is removed from its folder. -/
theorem remove_concat (hname : Name name) (hnodes : tree.folder path = .entries nodes)
    {contents : Octets} {modified : Instant}
    (hfile : nodes.get? name = some (.file contents modified)) :
    FileSystem.remove tree (path ++ [name])
      = (true, tree.set path (.entries (nodes.erase name))) := by
  have hnode : tree.node? (path ++ [name]) = some (.file contents modified) := by
    rw [node?_concat hname, hnodes]
    exact hfile
  simp only [FileSystem.remove, hnode, erase_concat hname hnodes]

theorem write_concat (hname : Name name) (hnodes : tree.folder path = .entries nodes)
    (contents : Octets) (now : Instant) :
    FileSystem.write tree (path ++ [name]) contents now
      = if takesFile nodes name then
          (true, tree.set path (.entries (nodes.insert name (.file contents now))))
        else (false, tree) := by
  simp only [FileSystem.write, takes_concat hname hnodes, put_concat hname hnodes]

/-- Another tree has a folder at a path, and elsewhere what the tree has. -/
def Differs (tree : Tree) (path : Path) (folder : Folder) (other : Tree) : Prop :=
  ∀ place, other.folder place = if place = path then folder else tree.folder place

/-- What was there before does not matter. -/
theorem Differs.set {folder : Folder} {other : Tree} (h : tree.Differs path folder other)
    (folder' : Folder) : tree.Differs path folder' (other.set path folder') := by
  intro place
  rw [folder_set, h place]
  split <;> rfl

theorem differs_self (tree : Tree) (path : Path) : tree.Differs path (tree.folder path) tree := by
  intro place
  split
  · rename_i heq
    rw [heq]
  · rfl

theorem Differs.folder_eq {folder : Folder} {other : Tree} (h : tree.Differs path folder other) :
    other.folder path = folder := (h path).trans (if_pos rfl)

/-- A file is replaced in a folder that is there, if no temporary file has the random number. -/
theorem replaceFile_entries (hname : Name name) (hnodes : tree.folder path = .entries nodes)
    (hfresh : nodes.get? (temporaryName name (tree.numbers 0)) = none) (contents : Octets)
    (now : Instant) :
    (replaceFile tree (path ++ [name]) contents now).1
        = ((Folder.entries nodes).replace name contents now).1
      ∧ tree.Differs path ((Folder.entries nodes).replace name contents now).2
        (replaceFile tree (path ++ [name]) contents now).2 := by
  obtain ⟨temporary, htemporary⟩ : ∃ text, text = temporaryName name (tree.numbers 0) := ⟨_, rfl⟩
  have hother : Name temporary := htemporary ▸ name_temporaryName hname _
  rw [← htemporary] at hfresh
  have hmake : FileSystem.makeFolder tree path = (true, tree) := by
    simp only [FileSystem.makeFolder, hnodes]
  obtain ⟨drawn, hnumber⟩ : ∃ drawn, FileSystem.number tree = (tree.numbers 0, drawn) := ⟨_, rfl⟩
  have hdiffers : tree.Differs path (.entries nodes) drawn := by
    obtain rfl := congrArg Prod.snd hnumber
    exact hnodes ▸ tree.differs_self path
  have htakes : takesFile nodes temporary = decide (temporarySize name ≤ nameLimit) := by
    rw [takesFile, hfresh, htemporary, utf8ByteSize_temporaryName, Bool.and_true]
  simp only [replaceFile, hname.parent?_concat, hname.name?_concat, Option.getD_some, hmake,
    hnumber, temporaryPath_eq hname, ← htemporary, write_concat hother hdiffers.folder_eq, htakes,
    replace_entries_eq]
  by_cases hfits : temporarySize name ≤ nameLimit
  · simp only [hfits, decide_true, if_true, and_true]
    have hwritten := hdiffers.set (.entries (nodes.insert temporary (.file contents now)))
    have hfile : (nodes.insert temporary (.file contents now)).get? temporary
        = some (.file contents now) := by
      rw [Table.get?_insert, if_pos rfl]
    have herase := Table.erase_insert hfresh (.file contents now)
    have hsame : takesFile (nodes.insert temporary (.file contents now)) name
        = takesFile nodes name := by
      rw [takesFile, takesFile, Table.get?_insert,
        if_neg (htemporary ▸ temporaryName_ne name _).symm]
    rw [rename_concat hother hname hwritten.folder_eq hfile, hsame, herase]
    by_cases htarget : takesFile nodes name = true
    · rw [if_pos htarget, if_pos htarget]
      exact ⟨rfl, (hwritten.set _).set _⟩
    · rw [if_neg htarget, if_neg htarget]
      dsimp only
      rw [remove_concat hother hwritten.folder_eq hfile, herase]
      exact ⟨rfl, hwritten.set _⟩
  · simp only [hfits, decide_false, and_false, if_false, Bool.false_eq_true]
    exact ⟨trivial, hdiffers⟩

/-- A replacement by way of a temporary file is one at once. -/
theorem replaceFile_eq (hname : Name name)
    (hfresh : (tree.folder path).nodes.get? (temporaryName name (tree.numbers 0)) = none)
    (contents : Octets) (now : Instant) :
    (replaceFile tree (path ++ [name]) contents now).1
        = ((tree.folder path).replace name contents now).1
      ∧ tree.Differs path ((tree.folder path).replace name contents now).2
        (replaceFile tree (path ++ [name]) contents now).2 := by
  cases hfolder : tree.folder path with
  | missing =>
    -- The folder is made first, and then the file is replaced in it.
    have hmade := (tree.differs_self path).set .empty
    have hsame : replaceFile tree (path ++ [name]) contents now
        = replaceFile (tree.set path .empty) (path ++ [name]) contents now := by
      have hmake : FileSystem.makeFolder tree path = (true, tree.set path .empty) := by
        simp only [FileSystem.makeFolder, hfolder]
      have hagain : FileSystem.makeFolder (tree.set path .empty) path
          = (true, tree.set path .empty) := by
        have hempty : (tree.set path .empty).folder path = .entries .empty := hmade.folder_eq
        simp only [FileSystem.makeFolder, hempty]
      simp only [replaceFile, hname.parent?_concat, Option.getD_some, hmake, hagain]
    have hentries := replaceFile_entries hname hmade.folder_eq (Table.get?_empty _) contents now
    rw [hsame, Folder.replace_missing]
    refine ⟨hentries.1, fun place => ?_⟩
    rw [hentries.2 place, hmade place]
    split <;> rfl
  | blocked =>
    have hmake : FileSystem.makeFolder tree path = (false, tree) := by
      simp only [FileSystem.makeFolder, hfolder]
    simp only [replaceFile, hname.parent?_concat, Option.getD_some, hmake]
    have hself := tree.differs_self path
    rw [hfolder] at hself
    exact ⟨rfl, hself⟩
  | entries nodes =>
    rw [hfolder] at hfresh
    exact replaceFile_entries hname hfolder hfresh contents now

end Tree

end Files

end FieldTelemetry
