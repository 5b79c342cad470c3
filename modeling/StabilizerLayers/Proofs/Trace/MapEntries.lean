import Mathlib.Data.List.Nodup
import Mathlib.Data.List.Perm.Basic
import StabilizerLayers.QubitMap

/-!
# Entries of maps

A map holds each qubit once. Its look-up and its entries therefore tell the
same, and a map that is built from distinct qubits holds what it was built from,
in another order. Maps that hold the same entries in some order are equal.
-/

namespace StabilizerLayers

namespace QubitMap

variable {α β : Type}

/-- A map holds no qubit twice. -/
theorem nodup_keys (map : QubitMap α) : map.keys.Nodup := by
  rw [keys, List.Nodup, List.pairwise_map]
  exact map.ascending.imp fun less => UInt32.ne_of_lt less

/-- A value that is found stands in an entry. -/
theorem mem_of_find? {id : Qubit} {entries : List (Qubit × α)} {value : α}
    (found : find? id entries = some value) : (id, value) ∈ entries := by
  induction entries with
  | nil => simp [find?] at found
  | cons head rest inductionHypothesis =>
    rw [find?] at found
    split at found
    · rename_i same
      obtain rfl := Option.some.inj found
      exact same ▸ .head _
    · exact .tail _ (inductionHypothesis found)

/-- What an entry of distinct qubits says is found. -/
theorem find?_of_mem {id : Qubit} {value : α} {entries : List (Qubit × α)}
    (distinct : (entries.map Prod.fst).Nodup) (member : (id, value) ∈ entries) :
    find? id entries = some value := by
  induction entries with
  | nil => cases member
  | cons head rest inductionHypothesis =>
    obtain ⟨fresh, later⟩ := List.nodup_cons.mp distinct
    rcases List.mem_cons.mp member with rfl | member
    · rw [find?, if_pos rfl]
    · have different : id ≠ head.1 := by
        rintro rfl
        exact fresh (List.mem_map.mpr ⟨_, member, rfl⟩)
      rw [find?, if_neg different, inductionHypothesis later member]

/-- The entries of a map are what is found in it. -/
theorem mem_entries_iff {map : QubitMap α} {id : Qubit} {value : α} :
    (id, value) ∈ map.entries ↔ map.get? id = some value :=
  ⟨find?_of_mem map.nodup_keys, mem_of_find?⟩

/-- A qubit of no entry has no value. -/
theorem find?_eq_none {id : Qubit} {entries : List (Qubit × α)}
    (absent : id ∉ entries.map Prod.fst) : find? id entries = none := by
  cases found : find? id entries with
  | none => rfl
  | some value => exact absurd (List.mem_map_of_mem (mem_of_find? found)) absent

/-- Changing all values changes the value that is found. -/
theorem find?_map (change : α → β) (id : Qubit) (entries : List (Qubit × α)) :
    find? id (entries.map fun entry => (entry.1, change entry.2)) =
      (find? id entries).map change := by
  induction entries with
  | nil => rfl
  | cons head rest inductionHypothesis =>
    by_cases same : id = head.1 <;> simp [find?, same, inductionHypothesis]

/-- Whether a qubit has a value is whether it is a key. -/
theorem contains_eq_true_iff {map : QubitMap α} {id : Qubit} :
    map.contains id = true ↔ id ∈ map.keys := by
  rw [contains, get?]
  constructor
  · intro held
    obtain ⟨value, found⟩ := Option.isSome_iff_exists.mp held
    exact List.mem_map_of_mem (mem_of_find? found)
  · intro member
    by_contra absent
    have missing : find? id map.entries = none := by simpa using absent
    obtain ⟨entry, listed, rfl⟩ := List.mem_map.mp member
    clear absent member
    generalize map.entries = entries at missing listed
    induction entries with
    | nil => simp at listed
    | cons head rest inductionHypothesis =>
      rw [find?] at missing
      split at missing
      · simp at missing
      · rename_i different
        rcases List.mem_cons.mp listed with rfl | later
        · exact different rfl
        · exact inductionHypothesis missing later

/-- Qubits whose value passes a test, as entries. -/
theorem mem_keysWhere {map : QubitMap α} {test : α → Bool} {id : Qubit} :
    id ∈ map.keysWhere test ↔ ∃ value, (id, value) ∈ map.entries ∧ test value = true := by
  simp [keysWhere, filter, keys]

/-- Setting a value brings in no other. -/
theorem mem_upsertEntries {id : Qubit} {value : α} {entries : List (Qubit × α)}
    {entry : Qubit × α} (member : entry ∈ upsertEntries id (fun _ => value) entries) :
    entry ∈ entries ∨ entry = (id, value) := by
  induction entries with
  | nil => exact .inr (List.mem_singleton.mp member)
  | cons head rest inductionHypothesis =>
    rw [upsertEntries] at member
    split at member
    · rcases List.mem_cons.mp member with new | old
      · exact .inr new
      · exact .inl old
    · split at member
      · rename_i same
        rcases List.mem_cons.mp member with new | old
        · exact .inr (new.trans (by rw [same]))
        · exact .inl (.tail _ old)
      · rcases List.mem_cons.mp member with rfl | later
        · exact .inl (.head _)
        · rcases inductionHypothesis later with old | new
          · exact .inl (.tail _ old)
          · exact .inr new

/-- Setting values brings in no others. -/
theorem mem_insertAll {map : QubitMap α} {added : List (Qubit × α)} {entry : Qubit × α}
    (member : entry ∈ (map.insertAll added).entries) : entry ∈ map.entries ∨ entry ∈ added := by
  induction added generalizing map with
  | nil => exact .inl member
  | cons head rest inductionHypothesis =>
    rcases inductionHypothesis member with here | later
    · rcases mem_upsertEntries here with old | rfl
      · exact .inl old
      · exact .inr (.head _)
    · exact .inr (.tail _ later)

/-- Upserting a new qubit adds one entry. -/
theorem upsertEntries_perm {id : Qubit} (update : Option α → α) {entries : List (Qubit × α)}
    (fresh : id ∉ entries.map Prod.fst) :
    (upsertEntries id update entries).Perm ((id, update none) :: entries) := by
  induction entries with
  | nil => exact .refl _
  | cons head rest inductionHypothesis =>
    obtain ⟨different, later⟩ : id ≠ head.1 ∧ id ∉ rest.map Prod.fst := by
      simpa using fresh
    rw [upsertEntries]
    split
    · exact .refl _
    · exact ((inductionHypothesis later).cons head).trans (.swap _ _ rest)

/-- Inserting distinct new qubits adds their entries. -/
theorem insertAll_perm (map : QubitMap α) {added : List (Qubit × α)}
    (distinct : (map.keys ++ added.map Prod.fst).Nodup) :
    (map.insertAll added).entries.Perm (map.entries ++ added) := by
  induction added generalizing map with
  | nil => simp [insertAll]
  | cons head rest inductionHypothesis =>
    obtain ⟨id, value⟩ := head
    have arranged : (id :: (map.keys ++ rest.map Prod.fst)).Nodup :=
      List.perm_middle.nodup_iff.mp distinct
    have fresh : id ∉ map.entries.map Prod.fst := fun member =>
      (List.nodup_cons.mp arranged).1 (List.mem_append_left _ member)
    have grown : (map.insert id value).entries.Perm ((id, value) :: map.entries) :=
      upsertEntries_perm _ fresh
    have keysGrown : (map.insert id value).keys.Perm (id :: map.keys) := grown.map Prod.fst
    have later := inductionHypothesis (map.insert id value)
      ((keysGrown.append_right (rest.map Prod.fst)).nodup_iff.mpr arranged)
    exact (later.trans (grown.append_right rest)).trans List.perm_middle.symm

/-- A map of distinct qubits holds the entries it was built from. -/
theorem ofList_perm {added : List (Qubit × α)} (distinct : (added.map Prod.fst).Nodup) :
    (ofList added).entries.Perm added :=
  insertAll_perm empty (by simpa [keys, empty] using distinct)

/-- Maps that hold the same entries in some order are equal. -/
theorem eq_of_perm {first second : QubitMap α} (perm : first.entries.Perm second.entries) :
    first = second := by
  refine ext_entries (perm.eq_of_pairwise ?_ first.ascending second.ascending)
  intro earlier later _ _ less greater
  exact absurd greater (UInt32.lt_asymm less)

/-- Maps in which the same is found are equal. -/
theorem ext_get? {first second : QubitMap α} (same : ∀ id, first.get? id = second.get? id) :
    first = second := by
  have entriesNodup (map : QubitMap α) : map.entries.Nodup := map.nodup_keys.of_map Prod.fst
  refine eq_of_perm ((List.perm_ext_iff_of_nodup (entriesNodup _) (entriesNodup _)).mpr ?_)
  rintro ⟨id, value⟩
  rw [mem_entries_iff, mem_entries_iff, same]

/-- A map is the map of its entries. -/
theorem ofList_entries (map : QubitMap α) : ofList map.entries = map :=
  eq_of_perm (ofList_perm map.nodup_keys)

/-- The map of distinct qubits is that of their entries in any order. -/
theorem ofList_eq_of_perm {entries : List (Qubit × α)} {map : QubitMap α}
    (perm : entries.Perm map.entries) : ofList entries = map :=
  eq_of_perm ((ofList_perm ((perm.map Prod.fst).nodup_iff.mpr map.nodup_keys)).trans perm)

/-- The qubits of two maps of qubits that are all distinct. -/
theorem nodup_keys_append {first second : List (Qubit × α)}
    (distinct : ((first ++ second).map Prod.fst).Nodup) :
    ((ofList first).keys ++ (ofList second).entries.map Prod.fst).Nodup := by
  rw [List.map_append] at distinct
  have firstPerm := (ofList_perm distinct.of_append_left).map Prod.fst
  have secondPerm := (ofList_perm distinct.of_append_right).map Prod.fst
  exact (firstPerm.append secondPerm).nodup_iff.mpr distinct

/-- Maps of distinct qubits put together. -/
theorem insertAll_ofList {first second : List (Qubit × α)}
    (distinct : ((first ++ second).map Prod.fst).Nodup) :
    (ofList first).insertAll (ofList second).entries = ofList (first ++ second) := by
  have apart := distinct
  rw [List.map_append] at apart
  have parts := (ofList_perm apart.of_append_left).append (ofList_perm apart.of_append_right)
  refine eq_of_perm ((insertAll_perm _ (nodup_keys_append distinct)).trans ?_)
  exact parts.trans (ofList_perm distinct).symm

/-- A qubit without a value is given one by any update that does so. -/
theorem upsert_of_fresh {map : QubitMap α} {id : Qubit} {update : Option α → α} {value : α}
    (fresh : id ∉ map.keys) (given : update none = value) :
    map.upsert id update = map.insert id value := by
  refine eq_of_perm ((upsertEntries_perm update fresh).trans ?_)
  rw [given]
  exact (upsertEntries_perm (fun _ => value) fresh).symm

/-! ### Changing all values -/

/-- Changing all values and updating one, in either order. -/
theorem mapValues_upsert (map : QubitMap α) (id : Qubit) {change : α → β}
    {update : Option α → α} {other : Option β → β}
    (same : ∀ old, other (old.map change) = change (update old)) :
    (map.upsert id update).mapValues change = (map.mapValues change).upsert id other := by
  refine ext_entries ?_
  show (upsertEntries id update map.entries).map (fun entry => (entry.1, change entry.2)) =
    upsertEntries id other (map.entries.map fun entry => (entry.1, change entry.2))
  induction map.entries with
  | nil =>
    have added := same none
    simp only [Option.map_none] at added
    simp [upsertEntries, added]
  | cons head rest inductionHypothesis =>
    have added := same none
    have replaced := same (some head.2)
    simp only [Option.map_none, Option.map_some] at added replaced
    simp only [upsertEntries, List.map_cons]
    split
    · simp [added]
    · split
      · simp [replaced]
      · simp [inductionHypothesis]

/-- Changing all values and setting some, in either order. -/
theorem mapValues_insertAll (map : QubitMap α) (change : α → β) (added : List (Qubit × α)) :
    (map.insertAll added).mapValues change =
      (map.mapValues change).insertAll (added.map fun entry => (entry.1, change entry.2)) := by
  induction added generalizing map with
  | nil => rfl
  | cons head rest inductionHypothesis =>
    rw [insertAll, inductionHypothesis, List.map_cons, insertAll]
    exact congrArg (insertAll · _) (mapValues_upsert map head.1 fun _ => rfl)

/-- Changing all values of the map of a list. -/
theorem mapValues_ofList (change : α → β) (entries : List (Qubit × α)) :
    (ofList entries).mapValues change =
      ofList (entries.map fun entry => (entry.1, change entry.2)) :=
  mapValues_insertAll empty change entries

/-- Changing the values keeps the keys. -/
@[simp]
theorem keys_mapValues (map : QubitMap α) (change : α → β) :
    (map.mapValues change).keys = map.keys := by
  rw [keys, mapValues, List.map_map]
  rfl

/-- Changing the values keeps which keys there are. -/
@[simp]
theorem contains_mapValues (map : QubitMap α) (change : α → β) :
    (map.mapValues change).contains = map.contains := by
  funext id
  rw [contains, get?_mapValues, Option.isSome_map, contains]

/-- A change of values that undoes itself. -/
theorem mapValues_mapValues (map : QubitMap α) {change : α → α}
    (involutive : ∀ value, change (change value) = value) :
    (map.mapValues change).mapValues change = map := by
  refine ext_entries ?_
  simp [mapValues, involutive, Function.comp_def]

end QubitMap

/-- The test for common qubits, as a statement. -/
theorem disjoint_eq_true_iff {first second : List Qubit} :
    disjoint first second = true ↔ ∀ id ∈ first, id ∉ second := by
  simp [disjoint]

end StabilizerLayers
