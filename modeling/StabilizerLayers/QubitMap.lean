import StabilizerLayers.Basis

/-!
# Maps from qubits

A finite map from qubits to values, held as its entries in ascending order of
qubits. The order is part of the type, so two maps with the same entries are
equal, and listing a map never depends on how it was built.

`QubitMap.upsert` is the only way to add an entry: it replaces the value of a
qubit by a function of the earlier one. The look-up laws after each operation
stand beside the operations.
-/

namespace StabilizerLayers

/-- A finite map from qubits, its entries in ascending order. -/
structure QubitMap (α : Type) where
  entries : List (Qubit × α)
  ascending : entries.Pairwise fun earlier later => earlier.1 < later.1

namespace QubitMap

variable {α β : Type}

/-- Maps with the same entries are equal. -/
theorem ext_entries {first second : QubitMap α} (same : first.entries = second.entries) :
    first = second := by
  cases first
  cases second
  simp_all

instance [BEq α] : BEq (QubitMap α) := ⟨fun first second => first.entries == second.entries⟩

/-- The map without entries. -/
def empty : QubitMap α := ⟨[], .nil⟩

/-- The first value that a list of entries gives to a qubit. -/
def find? (id : Qubit) : List (Qubit × α) → Option α
  | [] => none
  | (key, value) :: rest => if id = key then some value else find? id rest

/-- The value of a qubit. -/
def get? (map : QubitMap α) (id : Qubit) : Option α := find? id map.entries

/-- Whether a qubit has a value. -/
def contains (map : QubitMap α) (id : Qubit) : Bool := (map.get? id).isSome

/-- Qubits with a value, ascending. -/
def keys (map : QubitMap α) : List Qubit := map.entries.map fun entry => entry.1

/-- Values by ascending qubit. -/
def values (map : QubitMap α) : List α := map.entries.map fun entry => entry.2

/-- Whether no qubit has a value. -/
def isEmpty (map : QubitMap α) : Bool := map.entries.isEmpty

/-- Entries after the value of one qubit has been replaced by a function of the
    earlier value. -/
def upsertEntries (id : Qubit) (update : Option α → α) :
    List (Qubit × α) → List (Qubit × α)
  | [] => [(id, update none)]
  | (key, value) :: rest =>
    if id < key then (id, update none) :: (key, value) :: rest
    else if id = key then (key, update (some value)) :: rest
    else (key, value) :: upsertEntries id update rest

/-- An upsert brings in no qubit but its own. -/
theorem key_of_mem_upsertEntries {id : Qubit} {update : Option α → α}
    {entries : List (Qubit × α)} {entry : Qubit × α}
    (member : entry ∈ upsertEntries id update entries) :
    entry.1 = id ∨ ∃ old ∈ entries, old.1 = entry.1 := by
  induction entries with
  | nil => simp_all [upsertEntries]
  | cons head rest inductionHypothesis =>
    obtain ⟨key, value⟩ := head
    rw [upsertEntries] at member
    split at member
    · rcases List.mem_cons.mp member with rfl | tail
      · exact .inl rfl
      · exact .inr ⟨entry, tail, rfl⟩
    · split at member
      · rcases List.mem_cons.mp member with rfl | tail
        · exact .inr ⟨(key, value), .head _, rfl⟩
        · exact .inr ⟨entry, .tail _ tail, rfl⟩
      · rcases List.mem_cons.mp member with rfl | tail
        · exact .inr ⟨(key, value), .head _, rfl⟩
        · rcases inductionHypothesis tail with same | ⟨old, found, same⟩
          · exact .inl same
          · exact .inr ⟨old, .tail _ found, same⟩

/-- An upsert keeps the entries in ascending order. -/
theorem ascending_upsertEntries (id : Qubit) (update : Option α → α)
    {entries : List (Qubit × α)}
    (ascending : entries.Pairwise fun earlier later => earlier.1 < later.1) :
    (upsertEntries id update entries).Pairwise fun earlier later => earlier.1 < later.1 := by
  induction entries with
  | nil => simp [upsertEntries]
  | cons head rest inductionHypothesis =>
    obtain ⟨key, value⟩ := head
    obtain ⟨below, tail⟩ := List.pairwise_cons.mp ascending
    rw [upsertEntries]
    split
    · rename_i smaller
      refine List.pairwise_cons.mpr ⟨fun later member => ?_, ascending⟩
      rcases List.mem_cons.mp member with rfl | member
      · exact smaller
      · exact UInt32.lt_trans smaller (below later member)
    · rename_i notSmaller
      split
      · exact List.pairwise_cons.mpr ⟨below, tail⟩
      · rename_i different
        refine List.pairwise_cons.mpr ⟨fun later member => ?_, inductionHypothesis tail⟩
        have larger : key < id :=
          UInt32.lt_of_le_of_ne (UInt32.not_lt.mp notSmaller) fun same => different same.symm
        rcases key_of_mem_upsertEntries member with same | ⟨old, found, same⟩
        · exact same ▸ larger
        · exact same ▸ below old found

/-- Replaces the value of a qubit by a function of the earlier value. -/
def upsert (map : QubitMap α) (id : Qubit) (update : Option α → α) : QubitMap α :=
  ⟨upsertEntries id update map.entries, ascending_upsertEntries id update map.ascending⟩

/-- Sets the value of a qubit. -/
def insert (map : QubitMap α) (id : Qubit) (value : α) : QubitMap α :=
  map.upsert id fun _ => value

/-- Sets values in order; a later one replaces an earlier one. -/
def insertAll (map : QubitMap α) : List (Qubit × α) → QubitMap α
  | [] => map
  | (id, value) :: rest => (map.insert id value).insertAll rest

/-- The map of a list; a later value replaces an earlier one. -/
def ofList (entries : List (Qubit × α)) : QubitMap α := empty.insertAll entries

/-- Keeps the entries that pass a test. -/
def filter (map : QubitMap α) (keep : Qubit → α → Bool) : QubitMap α :=
  ⟨map.entries.filter fun entry => keep entry.1 entry.2, map.ascending.filter _⟩

/-- Drops the entries of some qubits. -/
def without (map : QubitMap α) (ids : List Qubit) : QubitMap α :=
  map.filter fun id _ => !ids.contains id

/-- Changes every value. -/
def mapValues (map : QubitMap α) (change : α → β) : QubitMap β :=
  ⟨map.entries.map fun entry => (entry.1, change entry.2),
    List.pairwise_map.mpr (map.ascending.imp fun less => less)⟩

/-- Qubits whose value passes a test, ascending. -/
def keysWhere (map : QubitMap α) (test : α → Bool) : List Qubit :=
  (map.filter fun _ value => test value).keys

/-- A qubit below every key has no value. -/
theorem find?_eq_none_of_lt {id : Qubit} {entries : List (Qubit × α)}
    (above : ∀ entry ∈ entries, id < entry.1) : find? id entries = none := by
  induction entries with
  | nil => rfl
  | cons head rest inductionHypothesis =>
    have here : id ≠ head.1 := UInt32.ne_of_lt (above head (.head _))
    rw [find?, if_neg here]
    exact inductionHypothesis fun entry member => above entry (.tail _ member)

/-- An upsert of entries changes the value of its own qubit only. -/
theorem find?_upsertEntries (id tested : Qubit) (update : Option α → α)
    {entries : List (Qubit × α)}
    (ascending : entries.Pairwise fun earlier later => earlier.1 < later.1) :
    find? tested (upsertEntries id update entries) =
      if tested = id then some (update (find? id entries)) else find? tested entries := by
  induction entries with
  | nil => rfl
  | cons head rest inductionHypothesis =>
    obtain ⟨key, value⟩ := head
    obtain ⟨below, tail⟩ := List.pairwise_cons.mp ascending
    rw [upsertEntries]
    split
    · rename_i smaller
      have absent : find? id ((key, value) :: rest) = none :=
        find?_eq_none_of_lt fun entry member => by
          rcases List.mem_cons.mp member with rfl | member
          · exact smaller
          · exact UInt32.lt_trans smaller (below entry member)
      rw [absent, find?]
    · split
      · rename_i same
        subst same
        by_cases here : tested = id <;> simp [find?, here]
      · rename_i different
        by_cases here : tested = key
        · subst here
          simp [find?, Ne.symm different]
        · by_cases same : tested = id
          · subst same
            simp [find?, here, inductionHypothesis tail]
          · simp [find?, here, same, inductionHypothesis tail]

/-- Filtering entries filters the value of a qubit. -/
theorem find?_filter (id : Qubit) (keep : Qubit → α → Bool) {entries : List (Qubit × α)}
    (ascending : entries.Pairwise fun earlier later => earlier.1 < later.1) :
    find? id (entries.filter fun entry => keep entry.1 entry.2) =
      (find? id entries).filter (keep id) := by
  induction entries with
  | nil => rfl
  | cons head rest inductionHypothesis =>
    obtain ⟨key, value⟩ := head
    obtain ⟨below, tail⟩ := List.pairwise_cons.mp ascending
    have later := inductionHypothesis tail
    by_cases same : id = key
    · subst same
      have absent : find? id rest = none := find?_eq_none_of_lt below
      rw [absent] at later
      by_cases kept : keep id value <;>
        simp [find?, kept, later, Option.filter]
    · by_cases kept : keep key value <;> simp [find?, kept, later, same]

/-- Only the qubit of an upsert changes its value. -/
theorem get?_upsert (map : QubitMap α) (id tested : Qubit) (update : Option α → α) :
    (map.upsert id update).get? tested =
      if tested = id then some (update (map.get? id)) else map.get? tested :=
  find?_upsertEntries id tested update map.ascending

/-- Only the qubit of an insertion changes its value. -/
theorem get?_insert (map : QubitMap α) (id tested : Qubit) (value : α) :
    (map.insert id value).get? tested = if tested = id then some value else map.get? tested :=
  map.get?_upsert id tested fun _ => value

/-- A filter keeps the values that pass it. -/
theorem get?_filter (map : QubitMap α) (keep : Qubit → α → Bool) (id : Qubit) :
    (map.filter keep).get? id = (map.get? id).filter (keep id) :=
  find?_filter id keep map.ascending

/-- A change of all values changes the value of each qubit. -/
theorem get?_mapValues (map : QubitMap α) (change : α → β) (id : Qubit) :
    (map.mapValues change).get? id = (map.get? id).map change := by
  show find? id (map.entries.map fun entry => (entry.1, change entry.2)) =
    (find? id map.entries).map change
  induction map.entries with
  | nil => rfl
  | cons head rest inductionHypothesis =>
    by_cases same : id = head.1 <;> simp [find?, same, inductionHypothesis]

end QubitMap

/-- Whether two lists of qubits have no qubit in common. -/
def disjoint (first second : List Qubit) : Bool :=
  first.all fun id => !second.contains id

/-- Qubits in ascending order, each once. -/
def distinctAscending (ids : List Qubit) : List Qubit :=
  (QubitMap.ofList (ids.map fun id => (id, ()))).keys

end StabilizerLayers
