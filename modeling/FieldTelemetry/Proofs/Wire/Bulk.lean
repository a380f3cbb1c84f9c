import FieldTelemetry.Wire.Bulk
import Mathlib.Algebra.BigOperators.Group.List.Basic
import Mathlib.Algebra.GroupWithZero.Nat
import Mathlib.Data.List.Basic

/-!
# Bulk payloads and their messages

Splitting takes exactly the bulk payloads of messages, with anything behind them, and gives the
messages back. It refuses every payload that ends within a message or before, as a whole, and looks
at no position that the payload does not have.

## Main definitions

* `Joinable`, `bulk`: messages that fit into a bulk payload, and the payload
* `splitByPosition?`: the messages of a payload, read by position

## Main results

* `join_eq_ok_iff`, `split_eq_ok_iff`: what is joined and split
* `split_of_prefix`: what is refused
* `splitByPosition?_eq`: splitting stays within the payload
* `bulk_grammar`: all of this
-/

namespace FieldTelemetry.Wire

/-- Messages fit into a bulk payload. -/
structure Joinable (messages : List Octets) : Prop where
  /-- An octet holds their number. -/
  count_le : messages.length ≤ 255
  /-- An octet holds the length of each. -/
  length_le : ∀ message ∈ messages, message.length ≤ 255

/-- The octets that hold the lengths of messages. -/
def lengthTable (messages : List Octets) : Octets :=
  messages.map fun message => UInt8.ofNat message.length

/-- The bulk payload of messages that fit into one. -/
def bulk (messages : List Octets) : Octets :=
  0 :: UInt8.ofNat messages.length :: (lengthTable messages ++ messages.flatten)

theorem join_eq_ok_iff {messages : List Octets} {payload : Octets} :
    join messages = .ok payload ↔ Joinable messages ∧ payload = bulk messages := by
  unfold join
  split
  · rename_i hcount
    have hnot : ¬ Joinable messages := fun h => absurd h.count_le (Nat.not_le.mpr hcount)
    simp [hnot]
  · rename_i hcount
    split
    · rename_i message hfound
      have hlong : octetLimit < message.length := by simpa using List.find?_some hfound
      have hnot : ¬ Joinable messages := fun h =>
        absurd (h.length_le message (List.mem_of_find?_eq_some hfound)) (Nat.not_le.mpr hlong)
      simp [hnot]
    · rename_i hnone
      have hjoinable : Joinable messages := by
        refine ⟨Nat.not_lt.mp hcount, ?_⟩
        intro message hmem
        have hfits := List.find?_eq_none.mp hnone message hmem
        exact Nat.not_lt.mp fun hlong => hfits (decide_eq_true hlong)
      constructor
      · rintro ⟨⟩
        exact ⟨hjoinable, rfl⟩
      · rintro ⟨-, rfl⟩
        rfl

/-! ## Parts by their lengths -/

/-- Messages are cut out of their octets by their lengths. -/
theorem cut_flatten_append (messages : List Octets) (tail : Octets) :
    cut (messages.map List.length) (messages.flatten ++ tail) = messages := by
  induction messages with
  | nil => rfl
  | cons message messages ih =>
    rw [List.flatten_cons, List.append_assoc, List.map_cons, cut, List.take_left,
      List.drop_left, ih]

theorem map_length_cut {lengths : List Nat} {octets : Octets} (h : lengths.sum ≤ octets.length) :
    (cut lengths octets).map List.length = lengths := by
  induction lengths generalizing octets with
  | nil => rfl
  | cons length lengths ih =>
    rw [List.sum_cons] at h
    have hrest : lengths.sum ≤ (octets.drop length).length := by rw [List.length_drop]; omega
    rw [cut, List.map_cons, ih hrest, List.length_take, Nat.min_eq_left (by omega)]

/-- Parts are consecutive, and what is behind them is left over. -/
theorem flatten_cut_append (lengths : List Nat) (octets : Octets) :
    (cut lengths octets).flatten ++ octets.drop lengths.sum = octets := by
  induction lengths generalizing octets with
  | nil => rfl
  | cons length lengths ih =>
    rw [cut, List.flatten_cons, List.append_assoc, List.sum_cons, ← List.drop_drop, ih,
      List.take_append_drop]

/-! ## Splitting -/

/-- The number of octets that a bulk payload with a table of lengths needs. -/
def needed (table : Octets) : Nat := table.length + 2 + (table.map UInt8.toNat).sum

theorem splitBulk_of_short {count : UInt8} {rest : Octets} (h : rest.length < count.toNat) :
    splitBulk (count :: rest) = .error (.overrun (count.toNat + 2) (rest.length + 2)) :=
  if_pos h

theorem splitBulk_append {count : UInt8} {table rest : Octets} (h : table.length = count.toNat) :
    splitBulk (count :: (table ++ rest))
      = if (table ++ rest).length + 2 < needed table then
          .error (.overrun (needed table) ((table ++ rest).length + 2))
        else .ok (cut (table.map UInt8.toNat) rest) := by
  have hlong : ¬ (table ++ rest).length < table.length := by rw [List.length_append]; omega
  simp only [splitBulk, ← h, if_neg hlong, List.take_left, List.drop_left, needed,
    List.sum_eq_foldr]
  rfl

section Tables

variable {messages : List Octets} (h : Joinable messages)
include h

theorem Joinable.length_lengthTable :
    (lengthTable messages).length = (UInt8.ofNat messages.length).toNat := by
  have hcount := h.count_le
  rw [lengthTable, List.length_map, UInt8.toNat_ofNat']
  omega

theorem Joinable.map_toNat_lengthTable :
    (lengthTable messages).map UInt8.toNat = messages.map List.length := by
  rw [lengthTable, List.map_map]
  apply List.map_congr_left
  intro message hmem
  have hlength := h.length_le message hmem
  rw [Function.comp_apply, UInt8.toNat_ofNat']
  omega

/-- A bulk payload has as many octets as it needs. -/
theorem Joinable.length_bulk : (bulk messages).length = needed (lengthTable messages) := by
  rw [needed, h.map_toNat_lengthTable, bulk, List.length_cons, List.length_cons,
    List.length_append, List.length_flatten]
  omega

/-- The messages of a bulk payload are those that were joined, whatever is behind it. -/
theorem Joinable.split_bulk_append (tail : Octets) :
    split (bulk messages ++ tail) = .ok messages := by
  have hshape : bulk messages ++ tail = 0 :: UInt8.ofNat messages.length
      :: (lengthTable messages ++ (messages.flatten ++ tail)) := by
    rw [← List.append_assoc]
    rfl
  have hlong : ¬ (lengthTable messages ++ (messages.flatten ++ tail)).length + 2
      < needed (lengthTable messages) := by
    rw [needed, h.map_toNat_lengthTable, ← List.length_flatten, List.length_append,
      List.length_append]
    omega
  rw [hshape, split, if_pos rfl, splitBulk_append h.length_lengthTable, if_neg hlong,
    h.map_toNat_lengthTable, cut_flatten_append]

/-- A payload that ends before the last message does is refused. -/
theorem Joinable.split_of_prefix {payload : Octets} (hfront : payload <+: bulk messages)
    (hne : payload ≠ bulk messages) (hnil : payload ≠ []) :
    ∃ needed,
      split payload = .error (.overrun needed payload.length) ∧ payload.length < needed := by
  obtain ⟨missing, hmissing⟩ := hfront
  have hshort : payload.length < (bulk messages).length := by
    have hpositive : missing ≠ [] := fun h => hne (by rw [← hmissing, h, List.append_nil])
    rw [← hmissing, List.length_append]
    exact Nat.lt_add_of_pos_right (List.length_pos_iff.mpr hpositive)
  rw [h.length_bulk] at hshort
  -- The payload may end within the first two octets, within the table or within the messages.
  match payload, hnil with
  | [first], _ =>
    obtain ⟨rfl, -⟩ := List.cons.inj hmissing
    exact ⟨2, rfl, by decide⟩
  | first :: count :: rest, _ =>
    obtain ⟨rfl, htail⟩ := List.cons.inj hmissing
    obtain ⟨rfl, hrest⟩ := List.cons.inj htail
    rw [split, if_pos rfl]
    by_cases htable : rest.length < (UInt8.ofNat messages.length).toNat
    · refine ⟨_, splitBulk_of_short htable, ?_⟩
      simp only [List.length_cons]
      omega
    · rw [← h.length_lengthTable, Nat.not_lt] at htable
      -- The table is there as a whole.
      obtain ⟨body, rfl⟩ : lengthTable messages <+: rest :=
        List.prefix_of_prefix_length_le ⟨_, rfl⟩ ⟨missing, hrest⟩ htable
      exact ⟨_, (splitBulk_append h.length_lengthTable).trans (if_pos hshort), hshort⟩

end Tables

/-- The parts that a table of lengths cuts out of what is behind it make up its bulk payload. -/
theorem joinable_cut {count : UInt8} {table body : Octets} (htable : table.length = count.toNat)
    (hsum : (table.map UInt8.toNat).sum ≤ body.length) :
    Joinable (cut (table.map UInt8.toNat) body) ∧ ∃ tail,
      0 :: count :: (table ++ body) = bulk (cut (table.map UInt8.toNat) body) ++ tail := by
  have hlengths := map_length_cut hsum
  have hcount : (cut (table.map UInt8.toNat) body).length = count.toNat := by
    rw [← List.length_map List.length, hlengths, List.length_map, htable]
  have hbodies := flatten_cut_append (table.map UInt8.toNat) body
  generalize cut (table.map UInt8.toNat) body = messages at hlengths hcount hbodies ⊢
  refine ⟨⟨?_, ?_⟩, body.drop (table.map UInt8.toNat).sum, ?_⟩
  · have hlt := count.toNat_lt
    omega
  · intro message hmem
    have hlength : message.length ∈ table.map UInt8.toNat := hlengths ▸ List.mem_map_of_mem hmem
    obtain ⟨b, -, hb⟩ := List.mem_map.mp hlength
    have hlt := b.toNat_lt
    omega
  · have hlengthTable : lengthTable messages = table := by
      have hocts : (messages.map List.length).map UInt8.ofNat = table := by
        rw [hlengths, List.map_map]
        exact (List.map_congr_left fun b _ => UInt8.ofNat_toNat).trans (List.map_id table)
      rwa [List.map_map] at hocts
    rw [bulk, hcount, UInt8.ofNat_toNat, hlengthTable, List.cons_append, List.cons_append,
      List.append_assoc, hbodies]

/-- A bulk payload is split exactly into the messages that were joined to its beginning. -/
theorem split_eq_ok_iff {rest : Octets} {messages : List Octets} :
    split (0 :: rest) = .ok messages
      ↔ Joinable messages ∧ ∃ tail, 0 :: rest = bulk messages ++ tail := by
  constructor
  · intro hsplit
    rw [split, if_pos rfl] at hsplit
    cases rest with
    | nil => cases hsplit
    | cons count rest =>
      by_cases hshort : rest.length < count.toNat
      · rw [splitBulk_of_short hshort] at hsplit
        cases hsplit
      · have htable : (rest.take count.toNat).length = count.toNat := by
          rw [List.length_take, Nat.min_eq_left (by omega)]
        rw [← List.take_append_drop count.toNat rest] at hsplit ⊢
        generalize rest.take count.toNat = table, rest.drop count.toNat = body at hsplit htable ⊢
        rw [splitBulk_append htable] at hsplit
        split at hsplit
        · cases hsplit
        · rename_i hlong
          cases hsplit
          have hsum : (table.map UInt8.toNat).sum ≤ body.length := by
            rw [needed, List.length_append] at hlong
            omega
          exact joinable_cut htable hsum
  · rintro ⟨hjoinable, tail, htail⟩
    rw [htail, hjoinable.split_bulk_append]

/-! ## Reading by position -/

/-- The octets between two positions of a payload, if it has both. -/
def slice? (payload : Octets) (start stop : Nat) : Option Octets :=
  if start ≤ stop ∧ stop ≤ payload.length then some ((payload.drop start).take (stop - start))
  else none

/-- Parts of the given lengths of a payload, one behind the other from a position on. -/
def slices? (payload : Octets) : (start : Nat) → (lengths : List Nat) → Option (List Octets)
  | _, [] => some []
  | start, length :: lengths => do
    let part ← slice? payload start (start + length)
    let parts ← slices? payload (start + length) lengths
    return part :: parts

/-- The messages of a payload that is read by position. There are none when it is read at a position
that it does not have. -/
def splitByPosition? (payload : Octets) : Option (Except FramingError (List Octets)) :=
  match payload.head? with
  | none => some (.error .empty)
  | some first =>
    if first ≠ 0 then some (.ok [payload])
    else if payload.length < 2 then some (.error (.overrun 2 payload.length))
    else do
      let count ← payload[1]?
      let header := count.toNat + 2
      if payload.length < header then some (.error (.overrun header payload.length))
      else do
        let table ← slice? payload 2 header
        let needed := header + (table.map UInt8.toNat).sum
        if payload.length < needed then some (.error (.overrun needed payload.length))
        else do
          let parts ← slices? payload header (table.map UInt8.toNat)
          return .ok parts

theorem slice?_eq_some {payload : Octets} {start stop : Nat} (h : start ≤ stop)
    (hstop : stop ≤ payload.length) :
    slice? payload start stop = some ((payload.drop start).take (stop - start)) :=
  if_pos ⟨h, hstop⟩

/-- Parts that end within a payload are cut out of it. -/
theorem slices?_eq_some {payload : Octets} {start : Nat} {lengths : List Nat}
    (h : start + lengths.sum ≤ payload.length) :
    slices? payload start lengths = some (cut lengths (payload.drop start)) := by
  induction lengths generalizing start with
  | nil => rfl
  | cons length lengths ih =>
    rw [List.sum_cons] at h
    have hrest : slices? payload (start + length) lengths
        = some (cut lengths (payload.drop (start + length))) := ih (by omega)
    rw [slices?, slice?_eq_some (by omega) (by omega), hrest, cut, List.drop_drop]
    simp

theorem splitByPosition?_of_short {count : UInt8} {rest : Octets} (h : rest.length < count.toNat) :
    splitByPosition? (0 :: count :: rest) = some (splitBulk (count :: rest)) := by
  have hheader : (0 :: count :: rest).length < count.toNat + 2 := Nat.add_lt_add_right h 2
  have hlong : ¬ (0 :: count :: rest).length < 2 := by simp
  rw [splitBulk_of_short h]
  simp only [splitByPosition?, List.head?_cons, ne_eq, not_true_eq_false, if_false, if_neg hlong,
    List.getElem?_cons_succ, List.getElem?_cons_zero, Option.bind_eq_bind, Option.bind_some,
    if_pos hheader]
  rfl

theorem splitByPosition?_append {count : UInt8} {table : Octets} (h : table.length = count.toNat)
    (body : Octets) :
    splitByPosition? (0 :: count :: (table ++ body))
      = some (splitBulk (count :: (table ++ body))) := by
  set payload := 0 :: count :: (table ++ body) with hpayload
  have hlength : payload.length = count.toNat + 2 + body.length := by
    simp only [hpayload, List.length_cons, List.length_append, h]
    omega
  have htable : slice? payload 2 (count.toNat + 2) = some table := by
    rw [slice?_eq_some (by omega) (by omega), Nat.add_sub_cancel, ← h]
    exact congrArg some List.take_left
  have hbody : payload.drop (count.toNat + 2) = body := by
    rw [← h]
    exact List.drop_left
  rw [splitBulk_append h]
  simp only [splitByPosition?, hpayload, List.head?_cons, ne_eq, not_true_eq_false, if_false,
    List.getElem?_cons_succ, List.getElem?_cons_zero, Option.bind_eq_bind, Option.bind_some]
  simp only [← hpayload]
  have hneeded : count.toNat + 2 + (table.map UInt8.toNat).sum = needed table := by rw [needed, h]
  have havailable : (table ++ body).length + 2 = payload.length := rfl
  rw [if_neg (by omega), if_neg (by omega), htable, Option.bind_some, hneeded, havailable]
  by_cases hoverrun : payload.length < needed table
  · rw [if_pos hoverrun, if_pos hoverrun]
  · have hparts : count.toNat + 2 + (table.map UInt8.toNat).sum ≤ payload.length := by
      rw [hneeded]
      exact Nat.not_lt.mp hoverrun
    rw [if_neg hoverrun, if_neg hoverrun, slices?_eq_some hparts, hbody]
    rfl

/-- Splitting reads a payload at its own positions only. -/
theorem splitByPosition?_eq (payload : Octets) :
    splitByPosition? payload = some (split payload) := by
  match payload with
  | [] => rfl
  | first :: rest =>
    by_cases hfirst : first = 0
    · subst hfirst
      match rest with
      | [] => rfl
      | count :: rest =>
        rw [split, if_pos rfl]
        by_cases hshort : rest.length < count.toNat
        · exact splitByPosition?_of_short hshort
        · have hlength : (rest.take count.toNat).length = count.toNat := by
            rw [List.length_take, Nat.min_eq_left (by omega)]
          have hwhole := splitByPosition?_append hlength (rest.drop count.toNat)
          rwa [List.take_append_drop] at hwhole
    · rw [split, if_neg hfirst]
      simp [splitByPosition?, hfirst]

/-! ## All of it -/

/-- Messages are joined exactly when there are at most 255 of at most 255 octets each. They are
split again whatever is behind them, nothing else that begins with a zero octet is split, every
payload that ends too early is refused for it, and splitting stays within the payload. -/
theorem bulk_grammar :
    (∀ messages, (∃ payload, join messages = .ok payload)
        ↔ messages.length ≤ 255 ∧ ∀ message ∈ messages, message.length ≤ 255)
      ∧ (∀ messages payload, join messages = .ok payload →
          (∀ tail, split (payload ++ tail) = .ok messages)
          ∧ split [] = .error .empty
          ∧ ∀ front, front <+: payload → front ≠ payload → front ≠ [] →
            ∃ needed, split front = .error (.overrun needed front.length)
              ∧ front.length < needed)
      ∧ (∀ rest messages, split (0 :: rest) = .ok messages →
          ∃ payload tail, join messages = .ok payload ∧ 0 :: rest = payload ++ tail)
      ∧ ∀ payload, splitByPosition? payload = some (split payload) := by
  refine ⟨?_, ?_, ?_, splitByPosition?_eq⟩
  · intro messages
    constructor
    · rintro ⟨payload, hjoin⟩
      obtain ⟨hjoinable, -⟩ := join_eq_ok_iff.mp hjoin
      exact ⟨hjoinable.count_le, hjoinable.length_le⟩
    · rintro ⟨hcount, hlength⟩
      exact ⟨bulk messages, join_eq_ok_iff.mpr ⟨⟨hcount, hlength⟩, rfl⟩⟩
  · intro messages payload hjoin
    obtain ⟨hjoinable, rfl⟩ := join_eq_ok_iff.mp hjoin
    refine ⟨hjoinable.split_bulk_append, rfl, ?_⟩
    intro front hfront hne hnil
    exact hjoinable.split_of_prefix hfront hne hnil
  · intro rest messages hsplit
    obtain ⟨hjoinable, tail, htail⟩ := split_eq_ok_iff.mp hsplit
    exact ⟨bulk messages, tail, join_eq_ok_iff.mpr ⟨hjoinable, rfl⟩, htail⟩

/-- An empty message and one of two octets are joined, found again in front of something else, and
refused without the last octet. -/
theorem bulk_grammar_pair :
    join [[], [0xaa, 0xbb]] = .ok [0, 2, 0, 2, 0xaa, 0xbb]
      ∧ split [0, 2, 0, 2, 0xaa, 0xbb, 0xff] = .ok [[], [0xaa, 0xbb]]
      ∧ (∃ needed, split [0, 2, 0, 2, 0xaa] = .error (.overrun needed 5) ∧ 5 < needed)
      ∧ ∃ payload tail, join [[], [0xaa, 0xbb]] = .ok payload
        ∧ [0, 2, 0, 2, 0xaa, 0xbb, 0xff] = payload ++ tail := by
  have hjoin : join [[], [0xaa, 0xbb]] = .ok [0, 2, 0, 2, 0xaa, 0xbb] := by decide
  obtain ⟨-, hjoined, hsplit, -⟩ := bulk_grammar
  obtain ⟨htail, -, hfront⟩ := hjoined _ _ hjoin
  have htrailing := htail [0xff]
  refine ⟨hjoin, htrailing, ?_, hsplit _ _ htrailing⟩
  exact hfront [0, 2, 0, 2, 0xaa] (by decide) (by decide) (by decide)

end FieldTelemetry.Wire
