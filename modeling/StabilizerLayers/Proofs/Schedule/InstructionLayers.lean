import StabilizerLayers.Proofs.Schedule.Exchanges
import StabilizerLayers.Proofs.Schedule.GreedyRuns

/-!
# Layers of an instruction

The layers that stand for a valid instruction do what its targets say, one after
the other, and are formed. A run is a part of the targets that names no qubit
twice, so what a layer does to the targets of a run in one round is what the
instruction does to them target by target.
-/

namespace StabilizerLayers

/-- Whether formed layers do what some actions do. -/
def StandFor (layers : List Layer) (actions : List Action) : Prop :=
  Layer.AllFormed layers ∧ Agrees (Layer.actionsAll layers) actions

namespace StandFor

variable {layers others : List Layer} {actions rest : List Action}

/-- No layers stand for no actions. -/
theorem nil : StandFor [] [] := ⟨trivial, .refl _⟩

/-- One layer. -/
theorem single {layer : Layer} (formed : layer.Formed) (agrees : Agrees layer.actions actions) :
    StandFor [layer] actions :=
  ⟨⟨formed, trivial⟩, by simpa [Layer.actionsAll] using agrees⟩

/-- Layers one after the other. -/
theorem append (first : StandFor layers actions) (second : StandFor others rest) :
    StandFor (layers ++ others) (actions ++ rest) := by
  refine ⟨Layer.allFormed_append.mpr ⟨first.1, second.1⟩, ?_⟩
  rw [Layer.actionsAll_append]
  exact first.2.append second.2

/-- Layers of entries, entry by entry. -/
theorem flatMap {α : Type} {entries : List α} {build : α → List Layer}
    {actions : α → List Action}
    (each : ∀ entry ∈ entries, StandFor (build entry) (actions entry)) :
    StandFor (entries.flatMap build) (entries.flatMap actions) := by
  induction entries with
  | nil => exact nil
  | cons entry rest inductionHypothesis =>
    exact (each entry (.head _)).append
      (inductionHypothesis fun later member => each later (.tail _ member))

/-- The actions can be told otherwise. -/
theorem of_agrees (stand : StandFor layers actions) (same : Agrees actions rest) :
    StandFor layers rest :=
  ⟨stand.1, stand.2.trans same⟩

end StandFor

/-- Layers of the runs of some units stand for what is done to the units, if the
    layers of each run stand for what is done to it. -/
theorem StandFor.runs {α : Type} {qubits : α → List Qubit} {units : List α}
    {build : List α → List Layer} {actions : α → List Action}
    (single : ∀ unit ∈ units, (qubits unit).Nodup)
    (each : ∀ run, (run.flatMap qubits).Nodup → StandFor (build run) (run.flatMap actions)) :
    StandFor ((runs qubits units).flatMap build) (units.flatMap actions) := by
  have whole : units.flatMap actions =
      (StabilizerLayers.runs qubits units).flatMap fun run => run.flatMap actions := by
    have parts : (StabilizerLayers.runs qubits units).flatMap id = units := by
      rw [List.flatMap_id, flatten_runs]
    conv_lhs => rw [← parts]
    rw [List.flatMap_assoc]
    rfl
  rw [whole]
  exact StandFor.flatMap fun run member => each run (nodup_of_mem_runs single member)

/-! ### Targets -/

/-- Reading the entries of a list reads each of them. -/
theorem forall₂_of_mapM {α β ε : Type} {read : α → Except ε β} {entries : List α}
    {values : List β} (done : entries.mapM read = .ok values) :
    List.Forall₂ (fun entry value => read entry = .ok value) entries values := by
  induction entries generalizing values with
  | nil =>
    obtain rfl : [] = values := by simpa [pure, Except.pure] using done
    exact .nil
  | cons entry rest inductionHypothesis =>
    rw [List.mapM_cons] at done
    cases first : read entry with
    | error fault => simp [first, bind, Except.bind] at done
    | ok value =>
      cases later : rest.mapM read with
      | error fault => simp [first, later, bind, Except.bind] at done
      | ok others =>
        obtain rfl : value :: others = values := by
          simpa [first, later, bind, Except.bind, pure, Except.pure] using done
        exact .cons first (inductionHypothesis later)

/-- Entries that are read one by one are read together. -/
theorem mapM_of_forall₂ {α β ε : Type} {read : α → Except ε β} {entries : List α}
    {values : List β}
    (each : List.Forall₂ (fun entry value => read entry = .ok value) entries values) :
    entries.mapM read = .ok values := by
  induction each with
  | nil => rfl
  | cons here _ inductionHypothesis =>
    rw [List.mapM_cons, here, inductionHypothesis]
    rfl

/-- Entries that can all be read are read in order. -/
theorem mapM_eq_ok {α β ε : Type} {read : α → Except ε β} {value : α → β} {entries : List α}
    (each : ∀ entry ∈ entries, read entry = .ok (value entry)) :
    entries.mapM read = .ok (entries.map value) :=
  mapM_of_forall₂ (List.forall₂_map_right_iff.mpr (List.forall₂_same.mpr each))

/-- A result that is not a fault. -/
theorem exists_of_isOk {ε α : Type} {result : Except ε α} (succeeds : result.isOk = true) :
    ∃ value, result = .ok value := by
  cases result with
  | error fault => cases succeeds
  | ok value => exact ⟨value, rfl⟩

/-- What a result is mapped from. -/
theorem exists_of_map_eq_ok {α β ε : Type} {build : α → β} {result : Except ε α} {made : β}
    (mapped : result.map build = .ok made) : ∃ value, result = .ok value ∧ build value = made := by
  cases result with
  | error fault => cases mapped
  | ok value => exact ⟨value, rfl, Except.ok.inj mapped⟩

/-- A mapped failure is the failure. -/
theorem eq_error_of_map_eq_error {α β ε : Type} {build : α → β} {result : Except ε α} {fault : ε}
    (mapped : result.map build = .error fault) : result = .error fault := by
  cases result with
  | error cause => exact congrArg _ (Except.error.inj mapped)
  | ok value => cases mapped

/-- A value that is read is read from one of the entries. -/
theorem exists_of_mem_mapM {α β ε : Type} {read : α → Except ε β} {entries : List α}
    {values : List β} (done : entries.mapM read = .ok values) {value : β}
    (member : value ∈ values) : ∃ entry ∈ entries, read entry = .ok value := by
  have each := forall₂_of_mapM done
  clear done
  induction each with
  | nil => simp at member
  | cons here _ inductionHypothesis =>
    rcases List.mem_cons.mp member with rfl | later
    · exact ⟨_, .head _, here⟩
    · obtain ⟨entry, listed, found⟩ := inductionHypothesis later
      exact ⟨entry, .tail _ listed, found⟩

/-- Entries that can be told from what is read of them. -/
theorem eq_map_of_mapM {α β ε : Type} {read : α → Except ε β} {write : β → α}
    (inverse : ∀ entry value, read entry = .ok value → entry = write value) {entries : List α}
    {values : List β} (done : entries.mapM read = .ok values) : entries = values.map write := by
  have each : List.Forall₂ Eq entries (values.map write) :=
    List.forall₂_map_right_iff.mpr ((forall₂_of_mapM done).imp inverse)
  rwa [List.forall₂_eq_eq_eq] at each

/-- Pairs of changed entries are changed pairs. -/
theorem consecutivePairs_map {α β : Type} (change : α → β) (entries : List α) :
    consecutivePairs (entries.map change) =
      (consecutivePairs entries).map fun pair => (change pair.1, change pair.2) := by
  fun_induction consecutivePairs entries with
  | case1 first second rest inductionHypothesis => simp [consecutivePairs, inductionHypothesis]
  | case2 entries short =>
    match entries, short with
    | [], _ => rfl
    | [_], _ => rfl
    | first :: second :: rest, short => exact absurd rfl (short first second rest)

namespace Instruction

variable {instruction : Instruction}

/-- Targets are read as plain qubits if they are these qubits. -/
theorem plainQubits_eq_ok_iff {ids : List Qubit} :
    instruction.plainQubits = .ok ids ↔ instruction.targets = ids.map Target.plain := by
  constructor
  · intro read
    refine eq_map_of_mapM (fun target id single => ?_) read
    cases target with
    | qubit named inverted =>
      cases inverted with
      | false => simpa [Target.plain] using single
      | true => simp [refused] at single
    | record _ | sweep _ | pauli _ _ _ | combiner => simp [refused] at single
  · intro named
    rw [plainQubits, named, List.mapM_map]
    refine (mapM_eq_ok fun id _ => ?_).trans (congrArg _ (List.map_id _))
    rfl

/-- Pairs that are read as plain pairs are the pairs of qubits. -/
theorem qubitPairs_of_plainPairs {pairs : List (Qubit × Qubit)}
    (read : instruction.plainPairs = .ok pairs) : instruction.qubitPairs = pairs := by
  rw [plainPairs] at read
  cases plain : instruction.plainQubits with
  | error fault => simp [plain, Except.map] at read
  | ok ids =>
    obtain rfl : consecutivePairs ids = pairs := by simpa [plain, Except.map] using read
    rw [qubitPairs, targetPairs, plainQubits_eq_ok_iff.mp plain, consecutivePairs_map,
      List.filterMap_map]
    exact List.filterMap_some

/-- A classical bit before a qubit makes feedback on it. -/
theorem controlledActions_classical_left {control : Target} (bit : control.isClassical = true)
    (first second : Basis) (id : Qubit) (inverted : Bool) :
    controlledActions first second (control, .qubit id inverted) =
      [.feedback ⟨control, id, second⟩] := by
  cases control <;> first | rfl | simp [Target.isClassical] at bit

/-- A classical bit after a qubit makes feedback on it. -/
theorem controlledActions_classical_right {control : Target} (bit : control.isClassical = true)
    (first second : Basis) (id : Qubit) (inverted : Bool) :
    controlledActions first second (.qubit id inverted, control) =
      [.feedback ⟨control, id, first⟩] := by
  cases control <;> first | rfl | simp [Target.isClassical] at bit

/-- Pairs that are all checked are checked one by one. -/
theorem validatePair_of_validatePairs {gate : Gate} {pairs : List (Target × Target)}
    (valid : validatePairs gate pairs = .ok ()) {pair : Target × Target} (member : pair ∈ pairs) :
    validatePair gate pair.1 pair.2 = .ok () := by
  induction pairs with
  | nil => simp at member
  | cons head rest inductionHypothesis =>
    rw [validatePairs] at valid
    split at valid
    · cases valid
    · rename_i here
      rcases List.mem_cons.mp member with rfl | later
      · exact here
      · exact inductionHypothesis valid later

/-- A valid instruction on pairs has checked pairs. -/
theorem validatePairs_of_validate {gate : Gate} (applied : instruction.gate? = some gate)
    (paired : gate.shape = .pair) (valid : instruction.validate = .ok ()) :
    instruction.targets.length % 2 = 0 ∧ validatePairs gate instruction.targetPairs = .ok () := by
  rw [validate, applied] at valid
  simp only [validateTargets, paired] at valid
  split at valid
  · cases valid
  · rename_i even
    exact ⟨by simpa using even, valid⟩

/-- The qubits of a pair of a valid instruction are distinct. -/
theorem ne_of_mem_qubitPairs {gate : Gate} (applied : instruction.gate? = some gate)
    (paired : gate.shape = .pair) (valid : instruction.validate = .ok ())
    {pair : Qubit × Qubit} (member : pair ∈ instruction.qubitPairs) : (pairQubits pair).Nodup := by
  obtain ⟨-, checked⟩ := validatePairs_of_validate applied paired valid
  obtain ⟨targets, listed, read⟩ := List.mem_filterMap.mp member
  have passed := validatePair_of_validatePairs checked listed
  split at read
  · rename_i id _ other _
    obtain rfl := Option.some.inj read
    by_cases same : id = other
    · simp [validatePair, acceptsPaired, Target.isQubit, Target.isClassical, Target.qubit?,
        same] at passed
    · simpa [pairQubits] using same
  · cases read

end Instruction

end StabilizerLayers
