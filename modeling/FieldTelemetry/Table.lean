/-!
# Tables

A table has at most one value for every key, and keeps its keys in the order in which they first
came.

## Main definitions

* `Table`: a table
* `Table.get?`, `Table.insert`, `Table.erase`, `Table.mapValues`: its operations

## Main results

* `Table.get?_insert`, `Table.get?_erase`: what a table holds after a change
-/

namespace FieldTelemetry

/-- A table. -/
structure Table (κ α : Type) where
  /-- The keys with their values. -/
  entries : List (κ × α)
  /-- No key has two values. -/
  nodup : (entries.map Prod.fst).Nodup

namespace Table

variable {κ α : Type} [DecidableEq κ]

/-- No key has a value. -/
def empty : Table κ α := ⟨[], by simp⟩

instance : Inhabited (Table κ α) := ⟨empty⟩

/-- The value of a key in a list of keys with values. -/
def find? (key : κ) : List (κ × α) → Option α
  | [] => none
  | (k, a) :: rest => if k = key then some a else find? key rest

/-- The value of a key. -/
def get? (table : Table κ α) (key : κ) : Option α := find? key table.entries

/-- The list with another value for a key, which stands behind the others when it is new. -/
def put (key : κ) (value : α) : List (κ × α) → List (κ × α)
  | [] => [(key, value)]
  | (k, a) :: rest => if k = key then (k, value) :: rest else (k, a) :: put key value rest

theorem mem_keys_put {key k : κ} {value : α} {l : List (κ × α)}
    (h : k ∈ (put key value l).map Prod.fst) : k = key ∨ k ∈ l.map Prod.fst := by
  induction l with
  | nil => exact .inl (by simpa [put] using h)
  | cons e l ih =>
    obtain ⟨k', a⟩ := e
    simp only [put] at h
    split at h
    · rename_i heq
      subst heq
      simpa using h
    · simp only [List.map_cons, List.mem_cons] at h ⊢
      rcases h with h | h
      · exact .inr (.inl h)
      · rcases ih h with h | h
        · exact .inl h
        · exact .inr (.inr h)

theorem nodup_put (key : κ) (value : α) {l : List (κ × α)} (h : (l.map Prod.fst).Nodup) :
    ((put key value l).map Prod.fst).Nodup := by
  induction l with
  | nil => simp [put]
  | cons e l ih =>
    obtain ⟨k, a⟩ := e
    simp only [List.map_cons, List.nodup_cons] at h
    simp only [put]
    split
    · simpa using h
    · rename_i hne
      simp only [List.map_cons, List.nodup_cons]
      refine ⟨fun hk => ?_, ih h.2⟩
      rcases mem_keys_put hk with hk | hk
      · exact hne hk
      · exact h.1 hk

/-- The table with another value for a key. -/
def insert (table : Table κ α) (key : κ) (value : α) : Table κ α :=
  ⟨put key value table.entries, nodup_put key value table.nodup⟩

/-- The table without a key. -/
def erase (table : Table κ α) (key : κ) : Table κ α :=
  ⟨table.entries.filter (·.1 ≠ key), table.nodup.sublist (List.filter_sublist.map _)⟩

/-- The table with its values changed. -/
def mapValues (table : Table κ α) (f : κ → α → α) : Table κ α :=
  ⟨table.entries.map fun (k, a) => (k, f k a), by
    have h : (table.entries.map fun (k, a) => (k, f k a)).map Prod.fst
        = table.entries.map Prod.fst := by simp [Function.comp_def]
    rw [h]; exact table.nodup⟩

/-- The number of keys. -/
def size (table : Table κ α) : Nat := table.entries.length

/-- The keys. -/
def keys (table : Table κ α) : List κ := table.entries.map Prod.fst

theorem find?_put (key k : κ) (value : α) (l : List (κ × α)) :
    find? k (put key value l) = if k = key then some value else find? k l := by
  induction l with
  | nil =>
    by_cases h : k = key
    · simp [put, find?, h]
    · have h' : ¬ key = k := fun e => h e.symm
      simp [put, find?, h, h']
  | cons e l ih =>
    obtain ⟨k', a⟩ := e
    by_cases hk : k' = key
    · subst hk
      by_cases h : k = k' <;> simp [put, find?, h, eq_comm]
    · by_cases h : k' = k
      · subst h; simp [put, find?, hk]
      · simp [put, find?, hk, h, ih]

@[simp]
theorem get?_insert (table : Table κ α) (key k : κ) (value : α) :
    (table.insert key value).get? k = if k = key then some value else table.get? k :=
  find?_put key k value table.entries

theorem find?_filter (key k : κ) (l : List (κ × α)) :
    find? k (l.filter (·.1 ≠ key)) = if k = key then none else find? k l := by
  induction l with
  | nil => simp [find?]
  | cons e l ih =>
    obtain ⟨k', a⟩ := e
    by_cases hk : k' = key
    · subst hk
      by_cases h : k = k'
      · subst h; simpa using ih
      · have h' : ¬ k' = k := fun e => h e.symm
        simp only [List.filter, ne_eq, not_true, decide_false, h, h', find?, if_false]
        rw [ih, if_neg h]
    · by_cases h : k' = k
      · subst h; simp [find?, hk]
      · simp only [List.filter, ne_eq, hk, not_false_eq_true, decide_true, find?, h, if_false]
        rw [ih]

@[simp]
theorem get?_erase (table : Table κ α) (key k : κ) :
    (table.erase key).get? k = if k = key then none else table.get? k :=
  find?_filter key k table.entries

@[simp]
theorem get?_empty (k : κ) : (empty : Table κ α).get? k = none := rfl

theorem find?_map (f : κ → α → α) (key : κ) (l : List (κ × α)) :
    find? key (l.map fun (k, a) => (k, f k a)) = (find? key l).map (f key) := by
  induction l with
  | nil => rfl
  | cons e l ih =>
    obtain ⟨k, a⟩ := e
    by_cases h : k = key
    · subst h
      simp [find?]
    · simpa [find?, h] using ih

@[simp]
theorem get?_mapValues (table : Table κ α) (f : κ → α → α) (key : κ) :
    (table.mapValues f).get? key = (table.get? key).map (f key) :=
  find?_map f key table.entries

theorem mem_iff_find? {key : κ} {value : α} {l : List (κ × α)} (h : (l.map Prod.fst).Nodup) :
    (key, value) ∈ l ↔ find? key l = some value := by
  induction l with
  | nil => simp [find?]
  | cons e l ih =>
    obtain ⟨k, a⟩ := e
    rw [List.map_cons, List.nodup_cons] at h
    by_cases hk : k = key
    · subst hk
      -- The key has no other value further on.
      have hnone : (k, value) ∉ l := fun hmem => h.1 (List.mem_map.mpr ⟨_, hmem, rfl⟩)
      simp [find?, hnone, eq_comm]
    · have hne : ¬ key = k := fun heq => hk heq.symm
      simp [find?, hk, hne, ih h.2]

theorem mem_entries_iff {table : Table κ α} {key : κ} {value : α} :
    (key, value) ∈ table.entries ↔ table.get? key = some value :=
  mem_iff_find? table.nodup

end Table

end FieldTelemetry
