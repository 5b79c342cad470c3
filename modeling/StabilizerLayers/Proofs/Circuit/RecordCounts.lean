import StabilizerLayers.Proofs.Circuit.ExecutedCounts

/-!
# Counting records

The number of records that a circuit counts is the number of results in its
record stream, as far as the count can go: every valid instruction counts its
results, and the circuit does what its instruction stream does.
-/

namespace StabilizerLayers

/-- Whether an entry of the record stream is a measurement result. -/
def Record.isResult : Record → Bool
  | measured _ _ | product _ => true
  | parity _ => false

/-- Results in the record stream of some actions. -/
def resultCount (actions : List Action) : Nat := (records actions).countP Record.isResult

/-- No actions give no results. -/
@[simp]
theorem resultCount_nil : resultCount [] = 0 := rfl

/-- Actions one behind the other give the results of both. -/
@[simp]
theorem resultCount_append (first second : List Action) :
    resultCount (first ++ second) = resultCount first + resultCount second := by
  rw [resultCount, records_append, List.countP_append]
  rfl

namespace Instruction

variable {instruction : Instruction}

/-- Results of actions that are told entry by entry. -/
theorem resultCount_flatMap {α : Type} {entries : List α} {actions : α → List Action} (each : Nat)
    (same : ∀ entry ∈ entries, resultCount (actions entry) = each) :
    resultCount (entries.flatMap actions) = entries.length * each := by
  induction entries with
  | nil => simp
  | cons entry rest inductionHypothesis =>
    rw [List.flatMap_cons, resultCount_append, same entry (.head _),
      inductionHypothesis fun other member => same other (.tail _ member), List.length_cons,
      Nat.succ_mul, Nat.add_comm]

/-- Products have one operator more than combiners each. -/
theorem countP_isPauli {targets : List Target} (formed : StabilizerLayers.FormsProducts targets) :
    targets.countP Target.isPauli = targets.count .combiner + (products targets).length := by
  have cuts : ∀ cuts : List (List Target), (∀ factors ∈ cuts, isProduct factors = true) →
      cuts.flatten.countP Target.isPauli = cuts.flatten.count .combiner + cuts.length := by
    intro cuts whole
    induction cuts with
    | nil => rfl
    | cons factors rest inductionHypothesis =>
      have here := countP_isPauli_of_isProduct (whole factors (.head _))
      have later := inductionHypothesis fun other member => whole other (.tail _ member)
      rw [List.flatten_cons, List.countP_append, List.count_append, here, later, List.length_cons]
      omega
  have whole := cuts (products targets) formed
  rwa [products, List.flatten_splitBy] at whole

/-- The targets of a valid instruction on single qubits are qubits. -/
theorem isQubit_of_validate {gate : Gate} (applied : instruction.gate? = some gate)
    (single : gate.shape = .single) (valid : instruction.validate = .ok ()) {target : Target}
    (member : target ∈ instruction.targets) : target.isQubit = true := by
  rw [validate, applied] at valid
  simp only [validateTargets, single] at valid
  exact requireAll_eq_ok.mp valid target member

/-- A valid instruction counts its results. -/
theorem recordCount_eq (valid : instruction.validate = .ok ())
    (formed : instruction.FormsProducts) :
    instruction.recordCount = resultCount instruction.actions := by
  rw [recordCount, actions]
  cases applied : instruction.gate? with
  | none => rfl
  | some gate =>
    cases gate with
    | measure axis | measureReset axis =>
      refine ((resultCount_flatMap 1 fun target member => ?_).trans (Nat.mul_one _)).symm
      have qubit := isQubit_of_validate applied rfl valid member
      cases target <;> first | rfl | simp [Target.isQubit] at qubit
    -- The program counts operators less combiners, which is the number of whole products.
    | measureProduct =>
      have counted : resultCount ((products instruction.targets).map Action.product) =
          (products instruction.targets).length := by
        rw [List.map_eq_flatMap]
        exact (resultCount_flatMap 1 fun _ _ => rfl).trans (Nat.mul_one _)
      have operators := countP_isPauli (formed applied)
      simp only [gateActions]
      rw [counted]
      omega
    | reset _ | identity | pauli _ | exchange _ | sqrtPauli _ _ | cycleXYZ | cycleZYX =>
      refine ((resultCount_flatMap 0 fun target _ => ?_).trans (Nat.mul_zero _)).symm
      cases target <;> rfl
    | controlled first second =>
      refine ((resultCount_flatMap 0 fun pair _ => ?_).trans (Nat.mul_zero _)).symm
      obtain ⟨one, two⟩ := pair
      cases one <;> cases two <;> rfl
    | swap | iswap | sqrtProduct _ _ =>
      simp only [gateActions]
      rw [List.map_eq_flatMap]
      exact ((resultCount_flatMap 0 fun _ _ => rfl).trans (Nat.mul_zero _)).symm
    | cxSwap | swapCx | czSwap =>
      exact ((resultCount_flatMap 0 fun _ _ => rfl).trans (Nat.mul_zero _)).symm
    | detector | observableInclude | tick | qubitCoords | shiftCoords | iswapDag | pauliError _
    | depolarize1 | depolarize2 | pauliChannel1 | pauliChannel2 | correlatedError
    | elseCorrelatedError => rfl

/-- Sound instructions in a row count their results. -/
theorem resultCount_flatMap_actions {instructions : List Instruction}
    (sound : ∀ instruction ∈ instructions, instruction.Sound) :
    resultCount (instructions.flatMap actions) = (instructions.map recordCount).sum := by
  induction instructions with
  | nil => rfl
  | cons first rest inductionHypothesis =>
    obtain ⟨valid, formed⟩ := sound first (.head _)
    have later := inductionHypothesis fun other member => sound other (.tail _ member)
    rw [List.flatMap_cons, resultCount_append, List.map_cons, List.sum_cons,
      recordCount_eq valid formed, later]

end Instruction

mutual

/-- An operation does what its stream does, instruction by instruction. -/
theorem Operation.flatMap_stream (operation : Operation) :
    operation.stream.flatMap Instruction.actions = operation.actions := by
  cases operation with
  | single instruction => exact List.flatMap_singleton _ _
  | block repetitions body =>
    rw [Operation.stream, Operation.actions, List.flatten_eq_flatMap, List.flatMap_assoc,
      List.flatMap_replicate, id, Operation.flatMap_streamAll, repeated]

/-- Operations do what their stream does, instruction by instruction. -/
theorem Operation.flatMap_streamAll (operations : List Operation) :
    (Operation.streamAll operations).flatMap Instruction.actions =
      Operation.actionsAll operations := by
  cases operations with
  | nil => rfl
  | cons first rest =>
    rw [Operation.streamAll, Operation.actionsAll, List.flatMap_append, first.flatMap_stream,
      Operation.flatMap_streamAll]

end

mutual

/-- The stream of an operation has no other instructions. -/
theorem Operation.stream_subset (operation : Operation) :
    operation.stream ⊆ operation.instructions := by
  intro instruction member
  cases operation with
  | single other => exact member
  | block repetitions body =>
    obtain ⟨round, repeats, member⟩ := List.mem_flatten.mp member
    obtain rfl := List.eq_of_mem_replicate repeats
    exact Operation.streamAll_subset body member

/-- The stream of operations has no other instructions. -/
theorem Operation.streamAll_subset (operations : List Operation) :
    Operation.streamAll operations ⊆ Operation.instructionsAll operations := by
  cases operations with
  | nil => exact List.Subset.refl []
  | cons first rest =>
    have here := List.subset_append_of_subset_left (Operation.instructionsAll rest)
      first.stream_subset
    have later := List.subset_append_of_subset_right first.instructions
      (Operation.streamAll_subset rest)
    exact List.append_subset.mpr ⟨here, later⟩

end

/-- A sound circuit counts the results in its record stream, as far as the count
    can go. -/
theorem Circuit.recordCount_eq {circuit : Circuit} (valid : circuit.Valid)
    (formed : circuit.FormsProducts) :
    circuit.recordCount = min Tally.limit (circuit.records.countP Record.isResult) := by
  have counts : resultCount circuit.actions =
      ((Operation.streamAll circuit).map Instruction.recordCount).sum := by
    rw [Circuit.actions, ← Operation.flatMap_streamAll]
    refine Instruction.resultCount_flatMap_actions fun instruction member => ?_
    have held := Operation.streamAll_subset circuit member
    exact ⟨valid instruction held, formed instruction held⟩
  rw [circuit.recordCount_eq_min, ← counts]
  rfl

end StabilizerLayers
