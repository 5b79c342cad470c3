import StabilizerLayers.Proofs.Circuit.Building

/-!
# Timing slots

An instruction operates on units: single targets, target pairs or products. Between
two ticks of the instruction stream, with all repetitions written out, lies a slot. A
slot is spread if no qubit belongs to two of its units.

Reading the stream, it is enough to know the units of the slot that is still open. So
streams that lead from one open slot to the next can be put together, and a body that
starts and ends with an empty slot can be repeated.

Joining two valid instructions keeps their units.
-/

namespace StabilizerLayers

/-! ### Units -/

namespace Instruction

/-- The qubits of a target pair. -/
def pairUnit (pair : Target × Target) : List Qubit := pair.1.qubit?.toList ++ pair.2.qubit?.toList

/-- The qubits of each product of a product measurement. -/
def productUnits (targets : List Target) : List (List Qubit) :=
  (products targets).map fun factors => factors.filterMap Target.qubit?

/-- The qubits of each unit of a gate. A tick and annotations have none, and a
    correlated error is one unit. -/
def gateUnits (instruction : Instruction) : Gate → List (List Qubit)
  | .tick | .qubitCoords | .detector | .observableInclude | .shiftCoords => []
  | .correlatedError | .elseCorrelatedError => [instruction.qubits]
  | .measureProduct => productUnits instruction.targets
  | gate =>
    match gate.shape with
    | .pair => instruction.targetPairs.map pairUnit
    | _ => instruction.targets.map fun target => target.qubit?.toList

/-- The qubits of each unit that an instruction operates on. Nothing is known about the
    units of a gate outside the vocabulary, so all its targets are one. -/
def units (instruction : Instruction) : List (List Qubit) :=
  match instruction.gate? with
  | some gate => instruction.gateUnits gate
  | none => [instruction.qubits]

/-- The qubits that an instruction operates on, once for each unit. -/
def operands (instruction : Instruction) : List Qubit := instruction.units.flatten

/-- A gate on single qubits operates on each. -/
theorem operands_onQubits_single {gate : Gate} (shape : gate.shape = .single) (ids : List Qubit) :
    (onQubits gate ids).operands = ids := by
  have units : (onQubits gate ids).units = ids.map fun id => [id] := by
    cases gate with
    | tick | qubitCoords | detector | observableInclude | shiftCoords | measureProduct
    | correlatedError | elseCorrelatedError | controlled _ _ | swap | iswap | iswapDag
    | sqrtProduct _ _ | cxSwap | swapCx | czSwap | depolarize2 | pauliChannel2 => cases shape
    | identity | pauli _ | exchange _ | sqrtPauli _ _ | cycleXYZ | cycleZYX | reset _ | measure _
    | measureReset _ | pauliError _ | depolarize1 | pauliChannel1 => exact List.map_map
  rw [operands, units, ← List.flatMap_def, List.flatMap_singleton']

/-- Products side by side keep their units one after the other. -/
theorem productUnits_append {first second : List Target}
    (formed : StabilizerLayers.FormsProducts first) (next : StabilizerLayers.FormsProducts second) :
    productUnits (first ++ second) = productUnits first ++ productUnits second := by
  rw [productUnits, formed.products_append next, List.map_append]
  rfl

/-- Joining instructions keeps their units. -/
theorem units_withTargets {first second : Instruction} (fuses : Builder.fuses first second = true)
    (firstSound : first.Sound) (secondSound : second.Sound) :
    (first.withTargets second.targets).units = first.units ++ second.units := by
  obtain ⟨gate, firstApplied, secondApplied, fusable⟩ := gate?_of_fuses fuses
  have applied : (first.withTargets second.targets).gate? = some gate := firstApplied
  have pairs : gate.shape = .pair →
      (first.withTargets second.targets).targetPairs.map pairUnit =
        first.targetPairs.map pairUnit ++ second.targetPairs.map pairUnit := by
    intro paired
    have even := (validatePairs_of_validate firstApplied paired firstSound.1).1
    rw [← List.map_append]
    exact congrArg (List.map pairUnit) (consecutivePairs_append even second.targets)
  rw [units, units, units, applied, firstApplied, secondApplied]
  cases gate with
  | measureProduct =>
    exact productUnits_append (firstSound.2 firstApplied) (secondSound.2 secondApplied)
  | tick | qubitCoords | detector | observableInclude | shiftCoords | correlatedError
  | elseCorrelatedError => cases fusable
  | controlled _ _ | swap | iswap | iswapDag | sqrtProduct _ _ | cxSwap | swapCx | czSwap
  | depolarize2 | pauliChannel2 => exact pairs rfl
  | identity | pauli _ | exchange _ | sqrtPauli _ _ | cycleXYZ | cycleZYX | reset _ | measure _
  | measureReset _ | pauliError _ | depolarize1 | pauliChannel1 => exact List.map_append

end Instruction

/-! ### Streams and slots -/

mutual

/-- Instructions of one operation, repetitions written out. -/
def Operation.stream : Operation → List Instruction
  | .single instruction => [instruction]
  | .block repetitions body =>
    (List.replicate repetitions.toNat (Operation.streamAll body)).flatten

/-- Instructions of operations in order, repetitions written out. -/
def Operation.streamAll : List Operation → List Instruction
  | [] => []
  | first :: rest => first.stream ++ Operation.streamAll rest

end

namespace Operation

/-- Operations one behind the other are executed in that order. -/
@[simp]
theorem streamAll_append (first second : List Operation) :
    streamAll (first ++ second) = streamAll first ++ streamAll second := by
  induction first with
  | nil => rfl
  | cons operation rest inductionHypothesis =>
    rw [List.cons_append, streamAll, streamAll, inductionHypothesis, List.append_assoc]

/-- Instructions outside of blocks are executed as they are. -/
@[simp]
theorem streamAll_singles (instructions : List Instruction) :
    streamAll (instructions.map .single) = instructions := by
  induction instructions with
  | nil => rfl
  | cons first rest inductionHypothesis => simp [streamAll, stream, inductionHypothesis]

end Operation

/-- Instructions that operate on no qubit twice have spread units. -/
theorem Instruction.spread_of_nodup {instructions : List Instruction}
    (once : (instructions.flatMap operands).Nodup) : Spread (instructions.flatMap units) := by
  have flat : (instructions.flatMap units).flatten = instructions.flatMap operands := by
    rw [List.flatMap_def, List.flatten_flatten, List.map_map]
    rfl
  exact (List.nodup_flatten.mp (flat ▸ once)).2

namespace Circuit

/-- The slots of a circuit in time order, repetitions written out. -/
def slots (circuit : Circuit) : List (List Instruction) :=
  (Operation.streamAll circuit).splitOnP fun instruction => instruction.applies .tick

/-- Whether no qubit belongs to two units of one slot. -/
def SpreadsSlots (circuit : Circuit) : Prop :=
  ∀ slot ∈ circuit.slots, Spread (slot.flatMap Instruction.units)

end Circuit

/-- Whether a stream that starts with some units in the open slot has spread slots, and
    leaves some units in the slot that is open at its end. -/
inductive Leads : List (List Qubit) → List Instruction → List (List Qubit) → Prop where
  | done {held : List (List Qubit)} (spread : Spread held) : Leads held [] held
  | tick {held last : List (List Qubit)} {instruction : Instruction} {rest : List Instruction}
      (ticks : instruction.applies .tick = true) (spread : Spread held)
      (later : Leads [] rest last) : Leads held (instruction :: rest) last
  | step {held last : List (List Qubit)} {instruction : Instruction} {rest : List Instruction}
      (works : instruction.applies .tick = false)
      (later : Leads (held ++ instruction.units) rest last) : Leads held (instruction :: rest) last

namespace Leads

variable {held middle last : List (List Qubit)} {first second : List Instruction}

/-- The slot that is open at the end is spread. -/
theorem spread_last (leads : Leads held first last) : Spread last := by
  induction leads with
  | done spread => exact spread
  | tick _ _ _ inductionHypothesis => exact inductionHypothesis
  | step _ _ inductionHypothesis => exact inductionHypothesis

/-- Streams one after the other. -/
theorem append (here : Leads held first middle) (there : Leads middle second last) :
    Leads held (first ++ second) last := by
  induction here with
  | done _ => exact there
  | tick ticks spread _ inductionHypothesis => exact .tick ticks spread (inductionHypothesis there)
  | step works _ inductionHypothesis => exact .step works (inductionHypothesis there)

/-- A tick closes the open slot. -/
theorem ticked (spread : Spread held) : Leads held [.tick] [] :=
  .tick rfl spread (.done .nil)

/-- Instructions that are no ticks add their units to the open slot. -/
theorem worked {instructions : List Instruction}
    (works : ∀ instruction ∈ instructions, instruction.applies .tick = false)
    (spread : Spread (held ++ instructions.flatMap Instruction.units)) :
    Leads held instructions (held ++ instructions.flatMap Instruction.units) := by
  induction instructions generalizing held with
  | nil => simpa using .done (by simpa using spread)
  | cons instruction rest inductionHypothesis =>
    have grown : held ++ (instruction :: rest).flatMap Instruction.units =
        held ++ instruction.units ++ rest.flatMap Instruction.units := by simp
    rw [grown] at spread ⊢
    refine .step (works instruction (.head _)) (inductionHypothesis ?_ spread)
    exact fun other member => works other (.tail _ member)

/-- A stream between empty slots can be repeated. -/
theorem repeated (body : Leads [] first []) (times : Nat) :
    Leads [] (List.replicate times first).flatten [] := by
  induction times with
  | zero => exact .done .nil
  | succ times inductionHypothesis =>
    rw [List.replicate_succ, List.flatten_cons]
    exact body.append inductionHypothesis

/-- The slots of a stream are spread, the first one together with the units that were
    there before. -/
theorem spread_splitOnP (leads : Leads held first last) :
    ∃ slot slots, (first.splitOnP fun instruction => instruction.applies .tick) = slot :: slots ∧
      Spread (held ++ slot.flatMap Instruction.units) ∧
      ∀ other ∈ slots, Spread (other.flatMap Instruction.units) := by
  induction leads with
  | done spread => exact ⟨[], [], rfl, by simpa using spread, nofun⟩
  | tick ticks spread _ inductionHypothesis =>
    obtain ⟨slot, slots, split, here, later⟩ := inductionHypothesis
    refine ⟨[], slot :: slots, ?_, by simpa using spread, ?_⟩
    · rw [List.splitOnP_cons_eq_if_modifyHead, if_pos ticks, split]
    · intro other member
      rcases List.mem_cons.mp member with rfl | further
      · simpa using here
      · exact later other further
  | step works _ inductionHypothesis =>
    obtain ⟨slot, slots, split, here, later⟩ := inductionHypothesis
    refine ⟨_ :: slot, slots, ?_, by simpa using here, later⟩
    rw [List.splitOnP_cons_eq_if_modifyHead, split]
    simp [works]

end Leads

/-- A circuit whose stream leads on from an empty slot has spread slots. -/
theorem Circuit.spreadsSlots_of_leads {circuit : Circuit} {last : List (List Qubit)}
    (leads : Leads [] (Operation.streamAll circuit) last) : circuit.SpreadsSlots := by
  obtain ⟨slot, slots, split, here, later⟩ := leads.spread_splitOnP
  intro other member
  rw [Circuit.slots, split] at member
  rcases List.mem_cons.mp member with rfl | further
  · simpa using here
  · exact later other further

end StabilizerLayers
