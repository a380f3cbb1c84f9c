import FieldTelemetry.Proofs.Store.Interchange

/-!
# Paths of files

A path is taken as the list of the components that slashes separate. A text that is joined to a path
adds all of its components, and one that begins with a slash takes the place of the path. So a text
can lead anywhere, unless it is a name. The ids of entities make names of files, and no two of them
make the same.

## Main definitions

* `Path`, `Path.join`: paths, and a path with a text joined to it
* `Name`: the texts that name something in a folder
* `snapshotPath`, `stampPath`, `temporaryPath`: the files of snapshots and stamps, and the files
  that their contents are written to first

## Main results

* `snapshotPath_eq_ok_iff`, `stampPath_eq_ok_iff`: which files there are
* `snapshotPath_inj`, `stampPath_inj`: no two of them are the same
* `ne_temporaryPath`: none of them is a temporary file
-/

namespace FieldTelemetry.Files

open Store (EntityId.Valid StoreError fileName temporaryName)
open Text (hexChar lastHexDigits paddedHex)

/-! ## Paths -/

/-- The components of a path. Those of an absolute one begin with a slash. -/
abbrev Path := List String

/-- The components of a text. Nothing and a single full stop between slashes are none. -/
def parts (text : String) : List String :=
  ((text.toList.splitOn '/').filter fun part => part ≠ [] ∧ part ≠ ['.']).map String.ofList

namespace Path

/-- The path of a text. -/
def ofText (text : String) : Path :=
  if text.toList.head? = some '/' then "/" :: parts text else parts text

/-- A path with a text joined to it. -/
def join (path : Path) (text : String) : Path :=
  if text.toList.head? = some '/' then ofText text else path ++ parts text

/-- The path of the folder that something is in, if it is in one. -/
def parent? (path : Path) : Option Path :=
  if path = [] ∨ path = ["/"] then none else some path.dropLast

/-- The name of what is at a path, if it has one. -/
def name? (path : Path) : Option String :=
  path.getLast?.filter fun last => last ≠ "/" ∧ last ≠ ".."

end Path

/-- The text names something in a folder. -/
structure Name (text : String) : Prop where
  /-- It is not empty. -/
  ne_nil : text.toList ≠ []
  /-- It is not the folder itself. -/
  ne_stop : text ≠ "."
  /-- It is not the one that the folder is in. -/
  ne_stops : text ≠ ".."
  /-- It leads nowhere else. -/
  no_slash : '/' ∉ text.toList
  /-- A file system takes it as a whole. -/
  no_null : '\x00' ∉ text.toList

namespace Name

variable {text : String}

theorem head?_ne (h : Name text) : text.toList.head? ≠ some '/' := fun hhead =>
  h.no_slash (List.mem_of_mem_head? hhead)

theorem parts_eq (h : Name text) : parts text = [text] := by
  have hstop : text.toList ≠ ['.'] := fun heq => h.ne_stop (String.toList_inj.mp heq)
  rw [parts, List.splitOn_eq_singleton h.no_slash, List.filter_cons_of_pos, List.filter_nil,
    List.map_singleton, String.ofList_toList]
  exact decide_eq_true ⟨h.ne_nil, hstop⟩

/-- A name that is joined to a path becomes its last component. -/
theorem join_eq (h : Name text) (path : Path) : path.join text = path ++ [text] := by
  rw [Path.join, if_neg h.head?_ne, h.parts_eq]

/-- A text that is no name may lead elsewhere. -/
example : Path.join ["data", "device"] "../../etc/passwd"
      = ["data", "device", "..", "..", "etc", "passwd"]
    ∧ Path.join ["data", "device"] "/etc/passwd" = ["/", "etc", "passwd"] := ⟨rfl, rfl⟩

theorem ne_root (h : Name text) : text ≠ "/" := by
  rintro rfl
  exact h.no_slash (List.mem_singleton.mpr rfl)

theorem parent?_concat (h : Name text) (path : Path) : (path ++ [text] : Path).parent? = path := by
  have hne : ¬ (path ++ [text] = [] ∨ path ++ [text] = ["/"]) := by
    rintro (heq | heq)
    · simp at heq
    · have hlast : (path ++ [text]).getLast? = some "/" := by rw [heq]; rfl
      rw [List.getLast?_concat] at hlast
      exact h.ne_root (Option.some.inj hlast)
  rw [Path.parent?, if_neg hne, List.dropLast_concat]

theorem name?_concat (h : Name text) (path : Path) : (path ++ [text] : Path).name? = text := by
  rw [Path.name?, List.getLast?_concat, Option.filter_some, if_pos]
  exact decide_eq_true ⟨h.ne_root, h.ne_stops⟩

end Name

/-! ## Names of files -/

/-- The ids that are accepted are names, and so they are names of folders. -/
theorem name_of_valid {id : String} (h : EntityId.Valid id) : Name id where
  ne_nil := h.1
  ne_stop heq := h.2.1 (by rw [heq]; rfl)
  ne_stops heq := h.2.1 (by rw [heq]; rfl)
  no_slash hmem := (h.2.2.2 _ hmem).1 rfl
  no_null hmem := (h.2.2.2 _ hmem).2.2 rfl

/-- A text is a name when it ends as no folder does and has no character that leads elsewhere. -/
theorem name_of_getLast? {text : String} {c : Char} (hlast : text.toList.getLast? = some c)
    (hstop : c ≠ '.') (hslash : '/' ∉ text.toList) (hnull : '\x00' ∉ text.toList) :
    Name text where
  ne_nil heq := by
    rw [heq] at hlast
    cases hlast
  ne_stop heq := by
    rw [heq] at hlast
    exact hstop (Option.some.inj hlast).symm
  ne_stops heq := by
    rw [heq] at hlast
    exact hstop (Option.some.inj hlast).symm
  no_slash := hslash
  no_null := hnull

/-- They make names of files. -/
theorem name_fileName {id : String} (h : EntityId.Valid id) : Name (fileName id) := by
  have hid := name_of_valid h
  have hlist := Store.toList_fileName id
  refine name_of_getLast? (c := 'n') ?_ (by decide) ?_ ?_
  · rw [hlist, List.getLast?_append]
    rfl
  · rw [hlist, List.mem_append, not_or]
    exact ⟨hid.no_slash, by decide⟩
  · rw [hlist, List.mem_append, not_or]
    exact ⟨hid.no_null, by decide⟩

theorem mem_lastHexDigits {count n : Nat} {tail : List Char} {c : Char}
    (h : c ∈ lastHexDigits count n tail) : c ∈ tail ∨ ∃ d, c = hexChar d := by
  induction count generalizing n tail with
  | zero => exact .inl h
  | succ count ih =>
    rcases ih h with hmem | hdigit
    · rcases List.mem_cons.mp hmem with rfl | htail
      · exact .inr ⟨_, rfl⟩
      · exact .inl htail
    · exact .inr hdigit

theorem not_mem_paddedHex {width n : Nat} {c : Char} (h : ∀ d, c ≠ hexChar d) :
    c ∉ (paddedHex width n).toList := by
  rw [paddedHex, String.toList_ofList]
  intro hmem
  rcases mem_lastHexDigits hmem with hnil | ⟨d, hd⟩
  · cases hnil
  · exact h d hd

theorem toList_temporaryName (name : String) (number : UInt64) :
    (temporaryName name number).toList = '.' :: name.toList ++ '.'
      :: (paddedHex 16 number.toNat).toList ++ ['.', 't', 'm', 'p'] := by
  simp [temporaryName]

/-- A name makes names of temporary files. -/
theorem name_temporaryName {name : String} (h : Name name) (number : UInt64) :
    Name (temporaryName name number) := by
  have hlist := toList_temporaryName name number
  have hmem {c : Char} (hc : c ≠ '.' ∧ c ∉ ['.', 't', 'm', 'p']) (hname : c ∉ name.toList)
      (hdigit : ∀ d, c ≠ hexChar d) : c ∉ (temporaryName name number).toList := by
    rw [hlist]
    simp only [List.mem_append, List.mem_cons, not_or]
    exact ⟨⟨⟨hc.1, hname⟩, hc.1, not_mem_paddedHex hdigit⟩, by simpa using hc.2⟩
  refine name_of_getLast? (c := 'p') ?_ (by decide) ?_ ?_
  · rw [hlist, List.getLast?_append]
    rfl
  · exact hmem (by decide) h.no_slash (by decide)
  · exact hmem (by decide) h.no_null (by decide)

/-! ## Files of snapshots and stamps -/

/-- A text is refused unless it is an id. -/
def check (text : String) : Except StoreError Unit :=
  if EntityId.Valid text then .ok () else .error (.invalidId text)

/-- The file of a snapshot. The kind is checked first. -/
def snapshotPath (root : Path) (kind id : String) : Except StoreError Path := do
  check kind
  check id
  return (root.join kind).join (fileName id)

/-- The file of the stamp of a device. -/
def stampPath (folder : Path) (device : String) : Except StoreError Path := do
  check device
  return folder.join (fileName device)

/-- A file that the contents of another one of a name are written to first. -/
def temporaryPath (folder : Path) (name : String) (number : UInt64) : Path :=
  folder.join (temporaryName name number)

variable {root folder path : Path} {kind id device : String}

theorem check_of_valid (h : EntityId.Valid id) : check id = .ok () := if_pos h

theorem check_of_not_valid (h : ¬ EntityId.Valid id) : check id = .error (.invalidId id) := if_neg h

/-- The file is directly in the folder of the kind, and the folder is directly in the root. -/
theorem snapshotPath_of_valid (hkind : EntityId.Valid kind) (hid : EntityId.Valid id) :
    snapshotPath root kind id = .ok (root ++ [kind] ++ [fileName id]) := by
  rw [snapshotPath, check_of_valid hkind, check_of_valid hid, (name_of_valid hkind).join_eq,
    (name_fileName hid).join_eq]
  rfl

theorem stampPath_of_valid (hdevice : EntityId.Valid device) :
    stampPath folder device = .ok (folder ++ [fileName device]) := by
  rw [stampPath, check_of_valid hdevice, (name_fileName hdevice).join_eq]
  rfl

theorem snapshotPath_of_not_valid (h : ¬ (EntityId.Valid kind ∧ EntityId.Valid id)) :
    snapshotPath root kind id
      = .error (.invalidId (if EntityId.Valid kind then id else kind)) := by
  by_cases hkind : EntityId.Valid kind
  · rw [snapshotPath, check_of_valid hkind, check_of_not_valid fun hid => h ⟨hkind, hid⟩,
      if_pos hkind]
    rfl
  · rw [snapshotPath, check_of_not_valid hkind, if_neg hkind]
    rfl

theorem stampPath_of_not_valid (h : ¬ EntityId.Valid device) :
    stampPath folder device = .error (.invalidId device) := by
  rw [stampPath, check_of_not_valid h]
  rfl

theorem snapshotPath_eq_ok_iff : snapshotPath root kind id = .ok path
    ↔ (EntityId.Valid kind ∧ EntityId.Valid id) ∧ path = root ++ [kind] ++ [fileName id] := by
  by_cases hvalid : EntityId.Valid kind ∧ EntityId.Valid id
  · rw [snapshotPath_of_valid hvalid.1 hvalid.2, Except.ok.injEq, eq_comm]
    exact (and_iff_right hvalid).symm
  · rw [snapshotPath_of_not_valid hvalid]
    exact ⟨nofun, fun h => absurd h.1 hvalid⟩

theorem stampPath_eq_ok_iff : stampPath folder device = .ok path
    ↔ EntityId.Valid device ∧ path = folder ++ [fileName device] := by
  by_cases hvalid : EntityId.Valid device
  · rw [stampPath_of_valid hvalid, Except.ok.injEq, eq_comm]
    exact (and_iff_right hvalid).symm
  · rw [stampPath_of_not_valid hvalid]
    exact ⟨nofun, fun h => absurd h.1 hvalid⟩

/-- Snapshots of other kinds or ids have other files. -/
theorem snapshotPath_inj {kind' id' : String} (h : snapshotPath root kind id = .ok path)
    (h' : snapshotPath root kind' id' = .ok path) : kind = kind' ∧ id = id' := by
  obtain ⟨-, rfl⟩ := snapshotPath_eq_ok_iff.mp h
  obtain ⟨-, heq⟩ := snapshotPath_eq_ok_iff.mp h'
  obtain ⟨hfolder, hname⟩ := List.append_inj' heq rfl
  obtain ⟨-, hkind⟩ := List.append_inj' hfolder rfl
  exact ⟨List.singleton_inj.mp hkind, Store.fileName_injective (List.singleton_inj.mp hname)⟩

/-- Stamps of other devices have other files. -/
theorem stampPath_inj {device' : String} (h : stampPath folder device = .ok path)
    (h' : stampPath folder device' = .ok path) : device = device' := by
  obtain ⟨-, rfl⟩ := stampPath_eq_ok_iff.mp h
  obtain ⟨-, heq⟩ := stampPath_eq_ok_iff.mp h'
  obtain ⟨-, hname⟩ := List.append_inj' heq rfl
  exact Store.fileName_injective (List.singleton_inj.mp hname)

theorem temporaryPath_eq {name : String} (h : Name name) (number : UInt64) :
    temporaryPath folder name number = folder ++ [temporaryName name number] :=
  (name_temporaryName h number).join_eq folder

/-- The file of an id is not a temporary file. -/
theorem ne_temporaryPath {folder' : Path} {name : String} (hid : EntityId.Valid id)
    (hname : Name name) (number : UInt64) :
    folder ++ [fileName id] ≠ temporaryPath folder' name number := by
  rw [temporaryPath_eq hname]
  intro heq
  obtain ⟨-, hlast⟩ := List.append_inj' heq rfl
  exact Store.ne_fileName_of_hidden (Store.hidden_temporaryName name number) hid
    (List.singleton_inj.mp hlast).symm

end FieldTelemetry.Files
