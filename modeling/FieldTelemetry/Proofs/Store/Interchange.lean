import FieldTelemetry.Proofs.Stamp.Storage
import FieldTelemetry.Proofs.Text.Order
import FieldTelemetry.Store.Backend
import Mathlib.Data.List.Induction
import Mathlib.Data.List.Nodup
import Mathlib.Data.String.Basic

/-!
# Interchangeable backends

Memory and folders answer alike. What they answer follows from what was written before: the last
octets of an entity, and all entities of a kind in the order of their ids. Hidden files, such as the
temporary files of writes that did not come to their end, do not matter.

## Main definitions

* `Hidden`: the names of hidden files
* `Request`, `Answer`: a request to a backend and its answer
* `Event`, `answers`: what happens to a backend, and its answers to all requests
* `lastWrite?`, `Answered`: what was written last, and the answers that follow from it
* `Faithful`: the backends whose answers follow from what was written

## Main results

* `documentOf?_eq_some_iff`: the names of files and what they are about
* `Faithful.answers_eq`: faithful backends answer alike
* `Folders.faithful`, `Memory.faithful`: folders and memory are faithful
* `interchangeable`: folders answer like memory
-/

namespace FieldTelemetry.Store

open Time (Instant)

/-! ## Names -/

/-- A name with a full stop in front, as hidden files have it. -/
def Hidden (name : String) : Prop := name.toList.head? = some '.'

theorem hidden_temporaryName (name : String) (number : UInt64) :
    Hidden (temporaryName name number) := by
  simp [Hidden, temporaryName]

theorem EntityId.Valid.ne_nil {id : String} (h : EntityId.Valid id) : id.toList ≠ [] := h.1

theorem EntityId.Valid.not_hidden {id : String} (h : EntityId.Valid id) : ¬ Hidden id := h.2.1

theorem toList_fileName (id : String) :
    (fileName id).toList = id.toList ++ ['.', 'j', 's', 'o', 'n'] :=
  String.toList_append

/-- A file is about something that is not hidden, and has its name. -/
theorem documentOf?_eq_some_iff {name id : String} :
    documentOf? name = some id ↔ name = fileName id ∧ id.toList ≠ [] ∧ ¬ Hidden id := by
  constructor
  · intro h
    unfold documentOf? at h
    split at h
    · rename_i stem hname
      have hlist : name.toList = stem.reverse ++ ['.', 'j', 's', 'o', 'n'] := by
        rw [← List.reverse_reverse name.toList, hname]
        simp
      split at h
      · cases h
      · cases h
      · rename_i hnil hstop
        obtain rfl := Option.some.inj h
        refine ⟨String.toList_inj.mp ?_, ?_, ?_⟩
        · rw [toList_fileName, String.toList_ofList, hlist]
        · rw [String.toList_ofList]
          exact fun heq => hnil heq
        · rw [Hidden, String.toList_ofList, List.head?_eq_some_iff]
          rintro ⟨rest, heq⟩
          exact hstop rest heq
    · cases h
  · rintro ⟨rfl, hne, hhidden⟩
    have hreverse : (fileName id).toList.reverse
        = 'n' :: 'o' :: 's' :: 'j' :: '.' :: id.toList.reverse := by
      rw [toList_fileName, List.reverse_append]
      rfl
    rw [documentOf?, hreverse]
    simp only [List.reverse_reverse]
    split
    · contradiction
    · rename_i rest heq
      exact absurd (by rw [Hidden, heq]; rfl) hhidden
    · rw [String.ofList_toList]

theorem documentOf?_fileName {id : String} (h : EntityId.Valid id) :
    documentOf? (fileName id) = some id :=
  documentOf?_eq_some_iff.mpr ⟨rfl, h.ne_nil, h.not_hidden⟩

theorem hidden_fileName_iff {id : String} (h : id.toList ≠ []) :
    Hidden (fileName id) ↔ Hidden id := by
  rw [Hidden, Hidden, toList_fileName, List.head?_append, Option.or_of_isSome]
  exact List.isSome_head?.mpr h

/-- Hidden files are about nothing. -/
theorem documentOf?_of_hidden {name : String} (h : Hidden name) : documentOf? name = none := by
  rw [Option.eq_none_iff_forall_ne_some]
  intro id hid
  obtain ⟨rfl, hne, hhidden⟩ := documentOf?_eq_some_iff.mp hid
  exact hhidden ((hidden_fileName_iff hne).mp h)

theorem ne_fileName_of_hidden {name id : String} (h : Hidden name) (hid : EntityId.Valid id) :
    name ≠ fileName id := by
  rintro rfl
  exact hid.not_hidden ((hidden_fileName_iff hid.ne_nil).mp h)

namespace Interchange

/-! ## Requests and answers -/

/-- The name of a kind of entities, which can name a folder. -/
structure KindName where
  /-- The name. -/
  text : String
  /-- It can name a folder. -/
  valid : EntityId.Valid text

/-- The name of a hidden file. -/
structure HiddenName where
  /-- The name. -/
  text : String
  /-- It is hidden. -/
  hidden : Hidden text

/-- The name of the temporary file of a write. -/
def HiddenName.temporary (id : String) (number : UInt64) : HiddenName :=
  ⟨temporaryName (fileName id) number, hidden_temporaryName ..⟩

/-- A request to a backend. Any text may be given as an id, and if it is one, the names of its files
are not too long. -/
inductive Request
  /-- The text of a snapshot is to be read. -/
  | read (kind : KindName) (id : String)
    (fits : EntityId.Valid id → (fileName id).utf8ByteSize ≤ nameLimit)
  /-- Another text is to be written. -/
  | write (kind : KindName) (id : String) (octets : Octets) (now : Instant)
    (fits : EntityId.Valid id → temporarySize (fileName id) ≤ nameLimit)
  /-- The snapshots of a kind are to be listed. -/
  | list (kind : KindName)

/-- The answer to a request. -/
inductive Answer
  /-- What was read. -/
  | read (answer : Except StoreError (Option Octets))
  /-- Whether it was written. -/
  | write (answer : Except StoreError Unit)
  /-- What there is. -/
  | list (answer : Except StoreError (List Listing))
deriving DecidableEq

/-- The answer of a backend to a request, and the backend afterwards. -/
def Request.ask {σ : Type} [Backend σ] : Request → σ → Answer × σ
  | .read kind id _, state =>
    let (answer, state) := Backend.read state kind.text id
    (.read answer, state)
  | .write kind id octets now _, state =>
    let (answer, state) := Backend.write state kind.text id octets now
    (.write answer, state)
  | .list kind, state =>
    let (answer, state) := Backend.list state kind.text
    (.list answer, state)

/-- What happens to hidden files. -/
inductive Litter
  /-- A hidden file is there, with other contents or for the first time. -/
  | appears (kind : KindName) (name : HiddenName) (node : Node)
  /-- A hidden file is removed. -/
  | vanishes (kind : KindName) (name : HiddenName)

/-- The folder after something has happened to its hidden files. -/
def Litter.change : Litter → Folder → Folder
  | .appears _ name node, folder => folder.put name.text node
  | .vanishes _ name, folder => folder.remove name.text

/-- The kind whose folder has the hidden files. -/
def Litter.kind : Litter → KindName
  | .appears kind _ _ => kind
  | .vanishes kind _ => kind

/-- The backends that hidden files can be put beside. -/
class Littered (σ : Type) where
  /-- The backend after something has happened to hidden files. -/
  litter : Litter → σ → σ

/-- There are no files in memory. -/
instance : Littered Memory where
  litter _ memory := memory

instance : Littered Folders where
  litter litter folders :=
    ⟨folders.kinds.insert litter.kind.text (litter.change (folders.folder litter.kind.text))⟩

/-- What happens to a backend. -/
inductive Event
  /-- A request comes. -/
  | asked (request : Request)
  /-- Something happens to hidden files. -/
  | littered (litter : Litter)

section Runs

variable {σ : Type} [Backend σ] [Littered σ]

/-- The answer to an event, if it is a request, and the backend afterwards. -/
def Event.take : Event → σ → List Answer × σ
  | .asked request, state =>
    let (answer, state) := request.ask state
    ([answer], state)
  | .littered litter, state => ([], Littered.litter litter state)

/-- The backend after some events. -/
def after (events : List Event) (state : σ) : σ :=
  events.foldl (fun state event => (event.take state).2) state

/-- The answers to all requests among some events. -/
def answers : List Event → σ → List Answer
  | [], _ => []
  | event :: events, state => (event.take state).1 ++ answers events (event.take state).2

end Runs

/-! ## What was written -/

/-- What an event writes for an entity, and when. Nothing is written for a text that is no id. -/
def Event.writes? (kind id : String) : Event → Option (Octets × Instant)
  | .asked (.write kind' id' octets now _) =>
    if kind'.text = kind ∧ id' = id ∧ EntityId.Valid id then some (octets, now) else none
  | _ => none

/-- What was written last for an entity, and when. -/
def lastWrite? (events : List Event) (kind id : String) : Option (Octets × Instant) :=
  events.reverse.findSome? (Event.writes? kind id)

theorem lastWrite?_append (events : List Event) (event : Event) (kind id : String) :
    lastWrite? (events ++ [event]) kind id
      = (event.writes? kind id).or (lastWrite? events kind id) := by
  rw [lastWrite?, List.reverse_append, List.reverse_singleton, List.singleton_append,
    List.findSome?_cons]
  cases event.writes? kind id <;> rfl

theorem lastWrite?_append_of_eq_none {event : Event}
    (h : ∀ kind id, event.writes? kind id = none) (events : List Event) :
    lastWrite? (events ++ [event]) = lastWrite? events := by
  funext kind id
  rw [lastWrite?_append, h, Option.none_or]

theorem lastWrite?_write (events : List Event) (kind : KindName) (id : String) (octets : Octets)
    (now : Instant) (fits : EntityId.Valid id → temporarySize (fileName id) ≤ nameLimit)
    (kind' id' : String) :
    lastWrite? (events ++ [.asked (.write kind id octets now fits)]) kind' id'
      = if (kind' = kind.text ∧ id' = id) ∧ EntityId.Valid id then some (octets, now)
        else lastWrite? events kind' id' := by
  rw [lastWrite?_append, Event.writes?]
  by_cases h : kind.text = kind' ∧ id = id'
  · obtain ⟨rfl, rfl⟩ := h
    by_cases hid : EntityId.Valid id <;> simp [hid]
  · rw [if_neg fun h' => h ⟨h'.1, h'.2.1⟩, if_neg fun h' => h ⟨h'.1.1.symm, h'.1.2.symm⟩]
    rfl

theorem Event.valid_of_writes? {event : Event} {kind id : String} {write : Octets × Instant}
    (h : event.writes? kind id = some write) : EntityId.Valid id := by
  unfold Event.writes? at h
  split at h
  · split at h
    · rename_i hvalid
      exact hvalid.2.2
    · cases h
  · cases h

theorem valid_of_lastWrite? {events : List Event} {kind id : String} {write : Octets × Instant}
    (h : lastWrite? events kind id = some write) : EntityId.Valid id := by
  obtain ⟨event, -, hwrites⟩ := List.exists_of_findSome?_eq_some h
  exact event.valid_of_writes? hwrites

/-- The listings of all entities that something was written for. -/
structure Lists (writes : String → Option (Octets × Instant)) (listings : List Listing) : Prop where
  /-- They are in the order of the ids, and no id is there twice. -/
  sorted : (listings.map Listing.id).Pairwise (· < ·)
  /-- They are those of the entities that something was written for. -/
  mem_iff : ∀ listing, listing ∈ listings ↔
    ∃ octets, writes listing.id = some (octets, listing.modified)

theorem Lists.unique {writes : String → Option (Octets × Instant)} {as bs : List Listing}
    (ha : Lists writes as) (hb : Lists writes bs) : as = bs :=
  Text.eq_of_pairwise_lt Listing.id ha.sorted hb.sorted fun listing =>
    (ha.mem_iff listing).trans (hb.mem_iff listing).symm

/-- The answer to a request follows from the events before it. A text that is no id is refused. -/
def Answered (events : List Event) : Request → Answer → Prop
  | .read kind id _, answer => answer = .read
    (if EntityId.Valid id then .ok ((lastWrite? events kind.text id).map Prod.fst)
      else .error (.invalidId id))
  | .write _ id _ _ _, answer => answer = .write
    (if EntityId.Valid id then .ok () else .error (.invalidId id))
  | .list kind, answer => ∃ listings, answer = .list (.ok listings)
    ∧ Lists (lastWrite? events kind.text) listings

theorem Answered.unique {events : List Event} {request : Request} {a b : Answer}
    (ha : Answered events request a) (hb : Answered events request b) : a = b := by
  cases request with
  | read kind id fits => exact ha.trans hb.symm
  | write kind id octets now fits => exact ha.trans hb.symm
  | list kind =>
    obtain ⟨as, rfl, has⟩ := ha
    obtain ⟨bs, rfl, hbs⟩ := hb
    rw [has.unique hbs]

/-! ## Faithful backends -/

/-- A backend whose answers follow from what was written, as far as its state keeps it. -/
structure Faithful (σ : Type) [Backend σ] [Littered σ] (Keeps : List Event → σ → Prop) : Prop where
  /-- The answers follow from what was written. -/
  answered : ∀ {events state}, Keeps events state → ∀ request : Request,
    Answered events request (request.ask state).1
  /-- The state keeps what was written. -/
  keeps_take : ∀ {events state}, Keeps events state → ∀ event : Event,
    Keeps (events ++ [event]) (event.take state).2

namespace Faithful

variable {σ τ : Type} [Backend σ] [Littered σ] [Backend τ] [Littered τ]
  {Keeps : List Event → σ → Prop} {Keeps' : List Event → τ → Prop}

theorem keeps_after (h : Faithful σ Keeps) {state : σ} (hstate : Keeps [] state)
    (events : List Event) : Keeps events (after events state) := by
  induction events using List.reverseRecOn with
  | nil => exact hstate
  | append_singleton events event ih =>
    rw [after, List.foldl_append]
    exact h.keeps_take ih event

/-- Faithful backends that keep the same answer alike. -/
theorem answers_eq (hσ : Faithful σ Keeps) (hτ : Faithful τ Keeps') {before : List Event}
    {s : σ} {t : τ} (hs : Keeps before s) (ht : Keeps' before t) (events : List Event) :
    answers events s = answers events t := by
  induction events generalizing before s t with
  | nil => rfl
  | cons event events ih =>
    have hfirst : (event.take s).1 = (event.take t).1 := by
      cases event with
      | asked request =>
        exact congrArg ([·]) ((hσ.answered hs request).unique (hτ.answered ht request))
      | littered litter => rfl
    rw [answers, answers, hfirst, ih (hσ.keeps_take hs event) (hτ.keeps_take ht event)]

end Faithful

end Interchange

open Interchange

/-! ## Memory -/

namespace Memory

/-- The memory keeps what was written. -/
def Keeps (events : List Event) (memory : Memory) : Prop :=
  ∀ kind id, memory.snapshots.get? (kind, id) = lastWrite? events kind id

variable {events : List Event} {memory : Memory}

theorem mem_ofKind_iff {kind : String} {listing : Listing} : listing ∈ memory.ofKind kind
    ↔ ∃ octets, memory.snapshots.get? (kind, listing.id) = some (octets, listing.modified) := by
  simp only [ofKind, List.mem_filterMap, Prod.exists, Option.ite_none_right_eq_some,
    Option.some.injEq]
  constructor
  · rintro ⟨_, id, octets, modified, hentry, rfl, rfl⟩
    exact ⟨octets, Table.mem_entries_iff.mp hentry⟩
  · rintro ⟨octets, hget⟩
    exact ⟨kind, _, octets, _, Table.mem_entries_iff.mpr hget, rfl, rfl⟩

theorem nodup_ofKind (memory : Memory) (kind : String) :
    ((memory.ofKind kind).map Listing.id).Nodup := by
  have hids : (memory.ofKind kind).map Listing.id
      = memory.snapshots.keys.filterMap fun key => if key.1 = kind then some key.2 else none := by
    rw [ofKind, List.map_filterMap, Table.keys, List.filterMap_map]
    congr 1
    funext entry
    obtain ⟨⟨k, id⟩, octets, modified⟩ := entry
    by_cases hk : k = kind <;> simp [hk]
  rw [hids]
  refine List.Nodup.filterMap (fun key key' id h h' => ?_) memory.snapshots.nodup
  simp only [Option.mem_def, Option.ite_none_right_eq_some, Option.some.injEq] at h h'
  exact Prod.ext (h.1.trans h'.1.symm) (h.2.trans h'.2.symm)

theorem Keeps.lists (h : Keeps events memory) (kind : String) :
    Lists (lastWrite? events kind) (sortById (memory.ofKind kind)) where
  sorted := Text.pairwise_lt_mergeSort Listing.id (memory.nodup_ofKind kind)
  mem_iff listing := by
    rw [sortById, List.mem_mergeSort, mem_ofKind_iff, h]

theorem keeps_default : Keeps [] default := fun _ _ => rfl

/-- A write is kept. -/
theorem Keeps.write (h : Keeps events memory) (kind : KindName) (id : String) (octets : Octets)
    (now : Instant) (fits : EntityId.Valid id → temporarySize (fileName id) ≤ nameLimit) :
    Keeps (events ++ [.asked (.write kind id octets now fits)])
      (Backend.write memory kind.text id octets now).2 := by
  intro kind' id'
  rw [lastWrite?_write, ← h kind' id']
  by_cases hid : EntityId.Valid id
  · simp only [Backend.write, withId, hid, if_true, Table.get?_insert, Prod.mk.injEq, and_true]
  · simp only [Backend.write, withId, hid, and_false, if_false]

/-- Memory is faithful. -/
theorem faithful : Faithful Memory Keeps where
  answered {events memory} h request := by
    cases request with
    | read kind id fits =>
      simp only [Answered, Request.ask, Backend.read, withId, h kind.text id]
      split <;> rfl
    | write kind id octets now fits =>
      simp only [Answered, Request.ask, Backend.write, withId]
      split <;> rfl
    | list kind => exact ⟨_, rfl, h.lists kind.text⟩
  keeps_take {events memory} h event := by
    cases event with
    | asked request =>
      cases request with
      | read kind id fits =>
        have hstate : (Backend.read memory kind.text id).2 = memory := by
          simp only [Backend.read, withId]
          split <;> rfl
        rw [Keeps, lastWrite?_append_of_eq_none fun _ _ => rfl]
        simp only [Event.take, Request.ask, hstate]
        exact h
      | write kind id octets now fits => exact h.write kind id octets now fits
      | list kind =>
        rw [Keeps, lastWrite?_append_of_eq_none fun _ _ => rfl]
        exact h
    | littered litter =>
      rw [Keeps, lastWrite?_append_of_eq_none fun _ _ => rfl]
      exact h

end Memory

/-! ## Folders -/

namespace Folder

/-- A folder holds the files that were written, and no others but hidden ones. -/
structure Holds (folder : Folder) (writes : String → Option (Octets × Instant)) : Prop where
  /-- What was written is in the file. -/
  get?_eq : ∀ {id}, EntityId.Valid id → folder.nodes.get? (fileName id)
    = (writes id).map fun write => .file write.1 write.2
  /-- There are no other files but hidden ones. -/
  name_cases : ∀ {name node}, folder.nodes.get? name = some node →
    Hidden name ∨ ∃ id, EntityId.Valid id ∧ name = fileName id
  /-- No file stands in the place of the folder. -/
  ne_blocked : folder ≠ .blocked

variable {folder : Folder} {writes : String → Option (Octets × Instant)}

theorem holds_missing : missing.Holds fun _ => none where
  get?_eq _ := rfl
  name_cases h := by cases h
  ne_blocked h := by cases h

theorem get?_put (h : folder ≠ blocked) (name other : String) (node : Node) :
    (folder.put name node).nodes.get? other
      = if other = name then some node else folder.nodes.get? other := by
  cases folder with
  | blocked => contradiction
  | _ => exact Table.get?_insert ..

theorem get?_remove (folder : Folder) (name other : String) :
    (folder.remove name).nodes.get? other
      = if other = name then none else folder.nodes.get? other := by
  cases folder with
  | entries nodes => exact Table.get?_erase ..
  | _ => exact (ite_self none).symm

theorem put_ne_blocked (h : folder ≠ blocked) (name : String) (node : Node) :
    folder.put name node ≠ blocked := by
  cases folder with
  | blocked => contradiction
  | _ => exact nofun

theorem remove_ne_blocked (h : folder ≠ blocked) (name : String) :
    folder.remove name ≠ blocked := by
  cases folder with
  | blocked => contradiction
  | _ => exact nofun

theorem replace_of_fits (hblocked : folder ≠ blocked) {name : String}
    (hnode : folder.nodes.get? name ≠ some .folder) (hfits : temporarySize name ≤ nameLimit)
    (octets : Octets) (now : Instant) :
    folder.replace name octets now = (true, folder.put name (.file octets now)) := by
  cases folder with
  | blocked => contradiction
  | missing => simp only [replace, put, nodes, Table.get?_empty, if_pos hfits]
  | entries nodes => simp only [replace, put, if_pos hfits]

/-- An entry that is put into a folder for something takes part in what the folder holds. -/
theorem Holds.put_fileName (h : folder.Holds writes) {id : String} (hid : EntityId.Valid id)
    (octets : Octets) (now : Instant) : (folder.put (fileName id) (.file octets now)).Holds
      fun id' => if id' = id then some (octets, now) else writes id' where
  get?_eq {id'} hid' := by
    rw [get?_put h.ne_blocked]
    by_cases heq : id' = id
    · rw [if_pos (congrArg fileName heq), if_pos heq]
      rfl
    · rw [if_neg fun hname => heq (fileName_injective hname), if_neg heq]
      exact h.get?_eq hid'
  name_cases {name node} hget := by
    rw [get?_put h.ne_blocked] at hget
    by_cases hname : name = fileName id
    · exact .inr ⟨id, hid, hname⟩
    · rw [if_neg hname] at hget
      exact h.name_cases hget
  ne_blocked := put_ne_blocked h.ne_blocked _ _

/-- Hidden files take no part in what a folder holds. -/
theorem Holds.change (h : folder.Holds writes) (litter : Litter) :
    (litter.change folder).Holds writes := by
  cases litter with
  | appears kind name node =>
    refine ⟨fun {id} hid => ?_, fun {other node'} hget => ?_, put_ne_blocked h.ne_blocked _ _⟩
    · rw [Litter.change, get?_put h.ne_blocked,
        if_neg (ne_fileName_of_hidden name.hidden hid).symm]
      exact h.get?_eq hid
    · rw [Litter.change, get?_put h.ne_blocked] at hget
      by_cases hname : other = name.text
      · exact .inl (hname ▸ name.hidden)
      · rw [if_neg hname] at hget
        exact h.name_cases hget
  | vanishes kind name =>
    refine ⟨fun {id} hid => ?_, fun {other node'} hget => ?_, remove_ne_blocked h.ne_blocked _⟩
    · rw [Litter.change, get?_remove, if_neg (ne_fileName_of_hidden name.hidden hid).symm]
      exact h.get?_eq hid
    · rw [Litter.change, get?_remove, Option.ite_none_left_eq_some] at hget
      exact h.name_cases hget.2

/-- What is written for an id is in the file that is read for it. -/
theorem Holds.read_eq (h : folder.Holds writes) {id : String} (hid : EntityId.Valid id)
    (hfits : (fileName id).utf8ByteSize ≤ nameLimit) :
    folder.read (fileName id) = ((writes id).map Prod.fst).elim .absent .contents := by
  have hget := h.get?_eq hid
  cases folder with
  | blocked => exact absurd rfl h.ne_blocked
  | missing =>
    cases hwrites : writes id with
    | none => rfl
    | some write =>
      rw [hwrites] at hget
      cases hget
  | entries nodes =>
    simp only [Folder.nodes] at hget
    rw [read, if_neg (by omega), hget]
    cases writes id <;> rfl

theorem Holds.replace_eq (h : folder.Holds writes) {id : String} (hid : EntityId.Valid id)
    (hfits : temporarySize (fileName id) ≤ nameLimit) (octets : Octets) (now : Instant) :
    folder.replace (fileName id) octets now
      = (true, folder.put (fileName id) (.file octets now)) := by
  refine replace_of_fits h.ne_blocked (fun hget => ?_) hfits octets now
  rw [h.get?_eq hid, Option.map_eq_some_iff] at hget
  obtain ⟨write, -, hwrite⟩ := hget
  cases hwrite

end Folder

namespace Folders

theorem nodup_listings (folder : Folder) : ((listings folder).map Listing.id).Nodup := by
  have hids : (listings folder).map Listing.id = folder.nodes.keys.filterMap documentOf? := by
    rw [listings, List.map_filterMap, Table.keys, List.filterMap_map]
    congr 1
    funext entry
    obtain ⟨name, node⟩ := entry
    cases hname : documentOf? name with
    | none => simp [hname]
    | some id => cases node <;> simp [hname]
  rw [hids]
  refine List.Nodup.filterMap (fun name name' id h h' => ?_) folder.nodes.nodup
  rw [(documentOf?_eq_some_iff.mp h).1, (documentOf?_eq_some_iff.mp h').1]

theorem lists_listings {folder : Folder} {writes : String → Option (Octets × Instant)}
    (h : folder.Holds writes) (hvalid : ∀ {id write}, writes id = some write → EntityId.Valid id) :
    Lists writes (sortById (listings folder)) where
  sorted := Text.pairwise_lt_mergeSort Listing.id (nodup_listings folder)
  mem_iff listing := by
    rw [sortById, List.mem_mergeSort, listings, List.mem_filterMap]
    constructor
    · rintro ⟨⟨name, node⟩, hentry, hlisting⟩
      have hget := Table.mem_entries_iff.mp hentry
      obtain ⟨id, hname, hlisting⟩ := Option.bind_eq_some_iff.mp hlisting
      rcases h.name_cases hget with hhidden | ⟨id', hid, rfl⟩
      · rw [documentOf?_of_hidden hhidden] at hname
        cases hname
      · rw [documentOf?_fileName hid] at hname
        obtain rfl := Option.some.inj hname
        rw [h.get?_eq hid, Option.map_eq_some_iff] at hget
        obtain ⟨⟨octets, modified⟩, hwrite, rfl⟩ := hget
        obtain rfl := Option.some.inj hlisting
        exact ⟨octets, hwrite⟩
    · rintro ⟨octets, hwrite⟩
      have hid := hvalid hwrite
      have hget := h.get?_eq hid
      rw [hwrite] at hget
      refine ⟨_, Table.mem_entries_iff.mpr hget, ?_⟩
      simp only [documentOf?_fileName hid]
      rfl

/-- Every folder holds what was written for its kind. -/
def Keeps (events : List Event) (folders : Folders) : Prop :=
  ∀ kind, (folders.folder kind).Holds (lastWrite? events kind)

variable {events : List Event} {folders : Folders}

theorem keeps_default : Keeps [] default := fun _ => Folder.holds_missing

theorem folder_insert (folders : Folders) (kind other : String) (folder : Folder) :
    (⟨folders.kinds.insert kind folder⟩ : Folders).folder other
      = if other = kind then folder else folders.folder other := by
  rw [Folders.folder, Table.get?_insert]
  split <;> rfl

theorem read_eq (h : Keeps events folders) (kind : KindName) (id : String)
    (fits : EntityId.Valid id → (fileName id).utf8ByteSize ≤ nameLimit) :
    Backend.read folders kind.text id
      = (if EntityId.Valid id then .ok ((lastWrite? events kind.text id).map Prod.fst)
          else .error (.invalidId id), folders) := by
  simp only [Backend.read, withId, if_pos kind.valid]
  by_cases hid : EntityId.Valid id
  · rw [if_pos hid, if_pos hid, (h kind.text).read_eq hid (fits hid)]
    cases lastWrite? events kind.text id <;> rfl
  · rw [if_neg hid, if_neg hid]

theorem write_eq (h : Keeps events folders) (kind : KindName) (id : String) (octets : Octets)
    (now : Instant) (fits : EntityId.Valid id → temporarySize (fileName id) ≤ nameLimit) :
    Backend.write folders kind.text id octets now
      = if EntityId.Valid id then (.ok (), ⟨folders.kinds.insert kind.text
          ((folders.folder kind.text).put (fileName id) (.file octets now))⟩)
        else (.error (.invalidId id), folders) := by
  simp only [Backend.write, withId, if_pos kind.valid]
  by_cases hid : EntityId.Valid id
  · rw [if_pos hid, if_pos hid, (h kind.text).replace_eq hid (fits hid)]
    rfl
  · rw [if_neg hid, if_neg hid]

theorem list_eq (h : Keeps events folders) (kind : KindName) :
    Backend.list folders kind.text
      = (.ok (sortById (listings (folders.folder kind.text))), folders) := by
  have hblocked := (h kind.text).ne_blocked
  simp only [Backend.list, withId, if_pos kind.valid]

/-- What is written is kept. -/
theorem Keeps.write (h : Keeps events folders) (kind : KindName) (id : String) (octets : Octets)
    (now : Instant) (fits : EntityId.Valid id → temporarySize (fileName id) ≤ nameLimit) :
    Keeps (events ++ [.asked (.write kind id octets now fits)])
      (Backend.write folders kind.text id octets now).2 := by
  rw [write_eq h kind id octets now fits]
  intro kind'
  have hwrites : lastWrite? (events ++ [.asked (.write kind id octets now fits)]) kind'
      = fun id' => if (kind' = kind.text ∧ id' = id) ∧ EntityId.Valid id then some (octets, now)
        else lastWrite? events kind' id' :=
    funext (lastWrite?_write events kind id octets now fits kind')
  rw [hwrites]
  by_cases hid : EntityId.Valid id
  · rw [if_pos hid, folder_insert]
    by_cases hkind : kind' = kind.text
    · subst hkind
      simpa [hid] using (h kind.text).put_fileName hid octets now
    · simpa [hkind] using h kind'
  · simpa [hid] using h kind'

/-- What happens to hidden files does not matter. -/
theorem Keeps.litter (h : Keeps events folders) (litter : Litter) :
    Keeps events (Littered.litter litter folders) := by
  intro kind
  change (Folders.folder ⟨folders.kinds.insert _ _⟩ kind).Holds _
  rw [folder_insert]
  by_cases hkind : kind = litter.kind.text
  · rw [if_pos hkind, ← hkind]
    exact (h kind).change litter
  · rw [if_neg hkind]
    exact h kind

/-- Folders are faithful. -/
theorem faithful : Faithful Folders Keeps where
  answered {events folders} h request := by
    cases request with
    | read kind id fits => exact congrArg (Answer.read ·.1) (read_eq h kind id fits)
    | write kind id octets now fits =>
      simp only [Answered, Request.ask, write_eq h kind id octets now fits]
      split <;> rfl
    | list kind =>
      simp only [Answered, Request.ask, list_eq h kind]
      exact ⟨_, rfl, lists_listings (h kind.text) valid_of_lastWrite?⟩
  keeps_take {events folders} h event := by
    cases event with
    | asked request =>
      cases request with
      | read kind id fits =>
        rw [Keeps, lastWrite?_append_of_eq_none fun _ _ => rfl]
        simp only [Event.take, Request.ask, read_eq h kind id fits]
        exact h
      | write kind id octets now fits => exact h.write kind id octets now fits
      | list kind =>
        rw [Keeps, lastWrite?_append_of_eq_none fun _ _ => rfl]
        simp only [Event.take, Request.ask, list_eq h kind]
        exact h
    | littered litter =>
      rw [Keeps, lastWrite?_append_of_eq_none fun _ _ => rfl]
      exact h.litter litter

end Folders

/-! ## Interchange -/

/-- Folders and memory, empty at first, give the same answers to all requests, whatever happens to
hidden files. What they answer to one more request follows from what was written. -/
theorem interchangeable (events : List Event) :
    answers events (default : Folders) = answers events (default : Memory)
      ∧ ∀ request : Request,
        Answered events request (request.ask (after events (default : Folders))).1
          ∧ Answered events request (request.ask (after events (default : Memory))).1 := by
  have hfolders := Folders.faithful.keeps_after Folders.keeps_default events
  have hmemory := Memory.faithful.keeps_after Memory.keeps_default events
  refine ⟨?_, fun request => ⟨?_, ?_⟩⟩
  · exact Folders.faithful.answers_eq Memory.faithful Folders.keeps_default Memory.keeps_default
      events
  · exact Folders.faithful.answered hfolders request
  · exact Memory.faithful.answered hmemory request

-- The temporary file of a write that did not come to its end is not listed, and an id keeps its
-- extension.
example : answers [.littered (.appears ⟨"device", by decide⟩ (.temporary "a" 7) (.file [1] .epoch)),
      .asked (.write ⟨"device", by decide⟩ "b.json" [2] .epoch (by decide)),
      .asked (.read ⟨"device", by decide⟩ "a" (by decide)),
      .asked (.list ⟨"device", by decide⟩)] (default : Folders)
    = [.write (.ok ()), .read (.ok none), .list (.ok [⟨"b.json", .epoch⟩])] := by
  decide +kernel

end FieldTelemetry.Store
