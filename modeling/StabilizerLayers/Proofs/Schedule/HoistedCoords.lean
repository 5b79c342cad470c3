import StabilizerLayers.Proofs.Schedule.Cleanups
import StabilizerLayers.Proofs.Schedule.SimpleForms
import StabilizerLayers.Proofs.Schedule.TailStarts

/-!
# Hoisted coordinates

Declaring the coordinates of qubits at the start takes the declarations out of the top
level and leaves all other layers as they are. One layer in front declares the qubits of
all of them. A qubit has there the coordinates of its last declaration, moved by the
offset that the layers before that declaration add up to.

The layer in front has no offset before it. So its coordinates are moved no further when
coordinates are hoisted again, and hoisting twice is hoisting once.
-/

namespace StabilizerLayers

/-! ### Maps with entries set in order -/

namespace QubitMap

variable {α : Type}

/-- Values are set in order. -/
theorem insertAll_append (map : QubitMap α) (first second : List (Qubit × α)) :
    map.insertAll (first ++ second) = (map.insertAll first).insertAll second := by
  induction first generalizing map with
  | nil => rfl
  | cons entry rest inductionHypothesis => exact inductionHypothesis (map.insert entry.1 entry.2)

/-- Values set for distinct qubits replace earlier ones. -/
theorem get?_insertAll (map : QubitMap α) {added : List (Qubit × α)}
    (distinct : (added.map Prod.fst).Nodup) (id : Qubit) :
    (map.insertAll added).get? id = (find? id added).or (map.get? id) := by
  induction added generalizing map with
  | nil => rfl
  | cons entry rest inductionHypothesis =>
    obtain ⟨fresh, later⟩ := List.nodup_cons.mp distinct
    rw [insertAll, inductionHypothesis _ later, get?_insert, find?]
    by_cases same : id = entry.1
    · rw [same, find?_eq_none fresh]
      simp
    · simp [same]

/-- Setting values for other qubits leaves the value of a qubit. -/
theorem get?_insertAll_of_not_mem (map : QubitMap α) {added : List (Qubit × α)} {id : Qubit}
    (absent : id ∉ added.map Prod.fst) : (map.insertAll added).get? id = map.get? id := by
  induction added generalizing map with
  | nil => rfl
  | cons entry rest inductionHypothesis =>
    obtain ⟨different, later⟩ : id ≠ entry.1 ∧ id ∉ rest.map Prod.fst := by simpa using absent
    rw [insertAll, inductionHypothesis _ later, get?_insert, if_neg different]

/-- The map of a list has a value for the qubits of the list. -/
theorem contains_insertAll (map : QubitMap α) (added : List (Qubit × α)) (id : Qubit) :
    (map.insertAll added).contains id = true ↔
      map.contains id = true ∨ id ∈ added.map Prod.fst := by
  induction added generalizing map with
  | nil => simp [insertAll]
  | cons entry rest inductionHypothesis =>
    rw [insertAll, inductionHypothesis, contains, get?_insert]
    by_cases same : id = entry.1
    · simp [same]
    · simp [same, contains]

/-- The map of a list is empty if the list is. -/
theorem isEmpty_ofList (entries : List (Qubit × α)) :
    (ofList entries).isEmpty = entries.isEmpty := by
  cases entries with
  | nil => rfl
  | cons entry rest =>
    have filled : (empty.insert entry.1 entry.2).isEmpty = false := rfl
    exact isEmpty_insertAll filled rest

end QubitMap

/-! ### Offsets -/

namespace Layer

/-- Moved coordinates are as many as before. -/
theorem length_shiftedBy (coordinates offset : List Float) :
    (shiftedBy coordinates offset).length = coordinates.length := by
  fun_induction shiftedBy coordinates offset with
  | case1 first rest added others inductionHypothesis => simp [inductionHypothesis]
  | case2 => rfl

/-- Without an offset coordinates stay. -/
theorem shiftedBy_nil (coordinates : List Float) : shiftedBy coordinates [] = coordinates := by
  cases coordinates <;> rfl

/-- What a layer declares, moved by an offset. -/
def declaredAt (offset : List Float) : Layer → List (Qubit × List Float)
  | qubitCoords coordinates => (coordinates.mapValues (shiftedBy · offset)).entries
  | _ => []

/-- A layer declares coordinates of qubits only as a layer for it. -/
theorem mem_map_fst_declaredAt {offset : List Float} {layer : Layer} {id : Qubit} :
    id ∈ (layer.declaredAt offset).map Prod.fst ↔
      ∃ declared, layer = .qubitCoords declared ∧ declared.contains id = true := by
  cases layer with
  | qubitCoords coordinates =>
    have keys : (declaredAt offset (qubitCoords coordinates)).map Prod.fst = coordinates.keys :=
      coordinates.keys_mapValues _
    simp [keys, QubitMap.contains_eq_true_iff]
  | reset _ | measure _ | interact _ | interactSwap _ | swap _ | iswap _ | sqrtProduct _
  | feedback _ | rotation _ | product _ | parity _ | shiftCoords _ | empty | loop _ _ =>
    simp [declaredAt]

end Layer

namespace Schedule

/-! ### Declarations -/

/-- Declarations are collected layer by layer. -/
theorem declaredCoords_cons (offset : List Float) (layer : Layer) (rest : List Layer) :
    declaredCoords offset (layer :: rest) = layer.declaredAt offset ++
      declaredCoords (Layer.addShift offset layer.totalShift) rest := by
  cases layer with
  | qubitCoords coordinates =>
    have still : Layer.addShift offset (Layer.qubitCoords coordinates).totalShift = offset :=
      Layer.addShift_nil offset
    rw [declaredCoords, still, Layer.declaredAt]
  | reset _ | measure _ | interact _ | interactSwap _ | swap _ | iswap _ | sqrtProduct _
  | feedback _ | rotation _ | product _ | parity _ | shiftCoords _ | empty | loop _ _ => rfl

/-- Declarations of a schedule in two parts. The second is moved by the offset of the first. -/
theorem declaredCoords_append (offset : List Float) (before after : List Layer) :
    declaredCoords offset (before ++ after) =
      declaredCoords offset before ++ declaredCoords (Layer.shiftAfter offset before) after := by
  induction before generalizing offset with
  | nil => rfl
  | cons layer rest inductionHypothesis =>
    rw [List.cons_append, declaredCoords_cons, inductionHypothesis, declaredCoords_cons,
      List.append_assoc, Layer.shiftAfter]

/-- Coordinates are declared for the qubits of all layers that declare some. -/
theorem mem_map_fst_declaredCoords {offset : List Float} {layers : List Layer} {id : Qubit} :
    id ∈ (declaredCoords offset layers).map Prod.fst ↔
      ∃ declared, .qubitCoords declared ∈ layers ∧ declared.contains id = true := by
  induction layers generalizing offset with
  | nil => simp [declaredCoords]
  | cons layer rest inductionHypothesis =>
    rw [declaredCoords_cons, List.map_append, List.mem_append, inductionHypothesis,
      Layer.mem_map_fst_declaredAt]
    constructor
    · rintro (⟨declared, rfl, held⟩ | ⟨declared, listed, held⟩)
      · exact ⟨declared, .head _, held⟩
      · exact ⟨declared, .tail _ listed, held⟩
    · rintro ⟨declared, listed, held⟩
      rcases List.mem_cons.mp listed with rfl | later
      · exact .inl ⟨declared, rfl, held⟩
      · exact .inr ⟨declared, later, held⟩

/-- The other layers declare nothing. -/
theorem declaredCoords_filter (offset : List Float) (schedule : Schedule) :
    declaredCoords offset (schedule.filter fun layer => !layer.isQubitCoords) = [] := by
  rw [← List.map_eq_nil_iff, List.eq_nil_iff_forall_not_mem]
  intro id member
  obtain ⟨declared, listed, -⟩ := mem_map_fst_declaredCoords.mp member
  exact absurd (List.mem_filter.mp listed).2 (by simp [Layer.isQubitCoords])

/-! ### The layer in front -/

/-- All coordinates that are declared at the top level, of each qubit the last ones. -/
def hoistedCoords (schedule : Schedule) : QubitMap (List Float) :=
  .ofList (declaredCoords [] schedule)

/-- The layers other than declarations follow the layer in front, if there is one. -/
theorem hoistCoords_eq (schedule : Schedule) :
    schedule.hoistCoords =
      (if schedule.hoistedCoords.isEmpty then [] else [.qubitCoords schedule.hoistedCoords]) ++
        schedule.filter fun layer => !layer.isQubitCoords := by
  rw [hoistCoords, hoistedCoords, QubitMap.isEmpty_ofList]
  cases declaredCoords [] schedule with
  | nil => rfl
  | cons entry rest => rfl

/-- The layer in front declares the qubits of all declarations. -/
theorem contains_hoistedCoords {schedule : Schedule} {id : Qubit} :
    schedule.hoistedCoords.contains id = true ↔
      ∃ declared, .qubitCoords declared ∈ schedule ∧ declared.contains id = true := by
  rw [hoistedCoords, QubitMap.ofList, QubitMap.contains_insertAll, mem_map_fst_declaredCoords]
  exact or_iff_right (by simp [QubitMap.contains, QubitMap.get?, QubitMap.empty, QubitMap.find?])

/-- The last declaration of a qubit is moved by the offset of the layers before it. -/
theorem get?_hoistedCoords {before after : List Layer} {declared : QubitMap (List Float)}
    {id : Qubit} {coordinates : List Float} (here : declared.get? id = some coordinates)
    (last : ∀ later, .qubitCoords later ∈ after → later.contains id = false) :
    (hoistedCoords (before ++ .qubitCoords declared :: after)).get? id =
      some (Layer.shiftedBy coordinates (totalShift before)) := by
  let moved := declared.mapValues (Layer.shiftedBy · (totalShift before))
  have found : QubitMap.find? id moved.entries =
      some (Layer.shiftedBy coordinates (totalShift before)) := by
    have value := declared.get?_mapValues (Layer.shiftedBy · (totalShift before)) id
    rwa [here] at value
  have absent : ∀ offset, id ∉ (declaredCoords offset after).map Prod.fst := by
    intro offset member
    obtain ⟨later, listed, holds⟩ := mem_map_fst_declaredCoords.mp member
    exact absurd holds (by simp [last later listed])
  rw [hoistedCoords, declaredCoords_append, declaredCoords_cons, QubitMap.ofList,
    QubitMap.insertAll_append, QubitMap.insertAll_append,
    QubitMap.get?_insertAll_of_not_mem _ (absent _)]
  show ((QubitMap.empty.insertAll (declaredCoords [] before)).insertAll moved.entries).get? id = _
  rw [QubitMap.get?_insertAll _ moved.nodup_keys, found]
  rfl

/-- The layer in front is not moved when coordinates are hoisted again. -/
theorem hoistedCoords_hoistCoords (schedule : Schedule) :
    schedule.hoistCoords.hoistedCoords = schedule.hoistedCoords := by
  rw [hoistCoords_eq]
  split
  · rename_i none
    rw [List.nil_append, hoistedCoords, declaredCoords_filter]
    exact QubitMap.ext_entries (List.isEmpty_iff.mp none).symm
  · have unmoved : Layer.declaredAt [] (.qubitCoords schedule.hoistedCoords) =
        schedule.hoistedCoords.entries := by
      simp [Layer.declaredAt, QubitMap.mapValues, Layer.shiftedBy_nil]
    rw [List.singleton_append, hoistedCoords, declaredCoords_cons, declaredCoords_filter, unmoved,
      List.append_nil, QubitMap.ofList_entries]

/-- Layers other than declarations stay when coordinates are hoisted. -/
theorem filter_hoistCoords (schedule : Schedule) :
    schedule.hoistCoords.filter (fun layer => !layer.isQubitCoords) =
      schedule.filter fun layer => !layer.isQubitCoords := by
  rw [hoistCoords_eq]
  split <;> simp [Layer.isQubitCoords]

/-- Hoisting twice is hoisting once. -/
theorem hoistCoords_hoistCoords (schedule : Schedule) :
    schedule.hoistCoords.hoistCoords = schedule.hoistCoords := by
  rw [hoistCoords_eq schedule.hoistCoords, hoistedCoords_hoistCoords, filter_hoistCoords,
    ← hoistCoords_eq]

/-- If anything is hoisted, something is declared. -/
theorem exists_declaration {schedule : Schedule} (filled : schedule.hoistedCoords.isEmpty = false) :
    ∃ layer ∈ schedule, layer.isQubitCoords = true := by
  obtain ⟨entry, held⟩ := List.exists_mem_of_ne_nil _ (List.isEmpty_eq_false_iff.mp filled)
  have key : entry.1 ∈ schedule.hoistedCoords.keys := List.mem_map_of_mem held
  obtain ⟨declared, listed, -⟩ :=
    contains_hoistedCoords.mp (QubitMap.contains_eq_true_iff.mpr key)
  exact ⟨_, listed, rfl⟩

/-- A declaration after hoisting is the layer in front, and there is one before hoisting. -/
theorem eq_zero_of_isQubitCoords {schedule : Schedule} {index : Nat} {layer : Layer}
    (found : schedule.hoistCoords[index]? = some layer) (declares : layer.isQubitCoords = true) :
    index = 0 ∧ ∃ declaration ∈ schedule, declaration.isQubitCoords = true := by
  have apart : layer ∉ schedule.filter fun layer => !layer.isQubitCoords := fun member =>
    absurd (List.mem_filter.mp member).2 (by simp [declares])
  rw [hoistCoords_eq] at found
  cases filled : schedule.hoistedCoords.isEmpty with
  | true =>
    rw [filled, if_pos rfl, List.nil_append] at found
    exact absurd (List.mem_of_getElem? found) apart
  | false =>
    refine ⟨?_, exists_declaration filled⟩
    rw [filled, if_neg Bool.false_ne_true, List.singleton_append] at found
    cases index with
    | zero => rfl
    | succ index =>
      rw [List.getElem?_cons_succ] at found
      exact absurd (List.mem_of_getElem? found) apart

/-- Hoisting leaves one declaration of coordinates at the top level, in front of the other layers
    in their order, and none if none was there. It declares the qubits of all declarations, each
    with the coordinates of its last one, moved by the offset before that. Hoisting again changes
    nothing. -/
theorem hoistCoords_declares_last (schedule : Schedule) :
    ∃ hoisted : QubitMap (List Float),
      schedule.hoistCoords = (if hoisted.isEmpty then [] else [.qubitCoords hoisted]) ++
        schedule.filter (fun layer => !layer.isQubitCoords) ∧
      (∀ index layer, schedule.hoistCoords[index]? = some layer → layer.isQubitCoords = true →
        index = 0 ∧ ∃ declaration ∈ schedule, declaration.isQubitCoords = true) ∧
      (∀ id, hoisted.contains id = true ↔
        ∃ declared, .qubitCoords declared ∈ schedule ∧ declared.contains id = true) ∧
      (∀ before declared after id coordinates,
        schedule = before ++ .qubitCoords declared :: after →
        declared.get? id = some coordinates →
        (∀ later, .qubitCoords later ∈ after → later.contains id = false) →
        ∃ placed, hoisted.get? id = some placed ∧ placed.length = coordinates.length ∧
          placed = Layer.shiftedBy coordinates (totalShift before)) ∧
      schedule.hoistCoords.hoistCoords = schedule.hoistCoords := by
  refine ⟨schedule.hoistedCoords, schedule.hoistCoords_eq,
    fun index layer => eq_zero_of_isQubitCoords, fun id => contains_hoistedCoords, ?_,
    schedule.hoistCoords_hoistCoords⟩
  rintro before declared after id coordinates rfl here last
  exact ⟨_, get?_hoistedCoords here last, Layer.length_shiftedBy _ _, rfl⟩

end Schedule

end StabilizerLayers
