import StabilizerLayers.Proofs.Circuit.Building
import StabilizerLayers.Proofs.Schedule.LayerInstructions

/-!
# Written schedules

A schedule is written layer by layer, with ticks in between. A builder that stands
for some actions stands, after a layer, for these actions and those of the layer.
So the circuit of a formed schedule is sound and does what the schedule does.
-/

namespace StabilizerLayers

namespace Layer

variable {builder next : Builder} {actions : List Action}

/-- Instructions of other gates measure no products. -/
theorem formsProducts_of_ne {instruction : Instruction}
    (other : instruction.gate? ≠ some .measureProduct) : instruction.FormsProducts :=
  fun measures => absurd measures other

/-- Writing instructions that do what a layer does writes the layer. -/
theorem standsFor_fuseAll (stands : builder.StandsFor actions) {instructions : List Instruction}
    {layer : Layer} (others : ∀ instruction ∈ instructions,
      instruction.gate? ≠ some .measureProduct)
    (same : Agrees (instructions.flatMap Instruction.actions) layer.actions)
    (written : builder.fuseAll instructions = .ok next) :
    next.StandsFor (actions ++ layer.actions) :=
  (stands.fuseAll (fun instruction member => formsProducts_of_ne (others instruction member))
    written).of_agrees ((Agrees.refl actions).append same)

/-- Instructions of couplings with exchanges measure no products and have no
    arguments. -/
theorem exists_of_mem_swapInstructions {couplings : List Coupling} {instruction : Instruction}
    (member : instruction ∈ Coupling.swapInstructions couplings) :
    ∃ gate targets, gate ≠ .measureProduct ∧ instruction = .on gate targets := by
  rw [Coupling.swapInstructions, List.append_assoc] at member
  rcases List.mem_append.mp member with own | generic
  · obtain ⟨coupling, -, made⟩ := List.mem_filterMap.mp own
    obtain ⟨gate, has, rfl⟩ := Option.map_eq_some_iff.mp made
    refine ⟨gate, _, ?_, rfl⟩
    rw [Coupling.swapGate?] at has
    split at has
    · simp [← Option.some.inj has]
    · simp [← Option.some.inj has]
    · cases has
  · rcases List.mem_append.mp generic with coupled | exchanged
    · obtain ⟨coupling, -, rfl⟩ := List.mem_map.mp coupled
      exact ⟨coupling.gate, _, by simp [Coupling.gate], rfl⟩
    · obtain ⟨coupling, -, rfl⟩ := List.mem_map.mp exchanged
      exact ⟨.swap, _, by simp, rfl⟩

/-- Instructions of rotations measure no products and have no arguments. -/
theorem exists_of_mem_rotationInstructions {rotations : RotationLayer}
    {instruction : Instruction} (member : instruction ∈ rotations.instructions) :
    ∃ gate targets, gate ≠ .measureProduct ∧ instruction = .on gate targets := by
  obtain ⟨turn, -, made⟩ := List.mem_filterMap.mp member
  obtain ⟨gate, performs, made⟩ := Option.bind_eq_some_iff.mp made
  have other : gate ≠ .measureProduct := by
    rintro rfl
    cases turn <;> simp [Rotation.gate?] at performs
  split at made
  · cases made
  · exact ⟨gate, _, other, (Option.some.inj made).symm⟩

/-- Feedback, as an action. -/
theorem actions_feedbackInstruction {entry : Feedback}
    (classical : entry.control.isClassical = true) :
    (feedbackInstruction entry).actions = [.feedback entry] := by
  have told := Instruction.controlledActions_classical_left classical .Z entry.basis entry.id false
  simpa [Instruction.actions, feedbackInstruction, Instruction.gate?, Instruction.on,
    Operator.gate?, Instruction.gateActions, Instruction.targetPairs, consecutivePairs,
    Target.plain] using told

/-- Detectors and observables, as actions. -/
theorem actions_of_isParity {instruction : Instruction} (parity : instruction.isParity = true) :
    instruction.actions = [.parity instruction] := by
  rw [Instruction.isParity, Bool.or_eq_true, beq_iff_eq, beq_iff_eq] at parity
  rcases parity with applied | applied
  · rw [Instruction.actions, applied]
    rfl
  · rw [Instruction.actions, applied]
    rfl

/-- Writing coordinates. -/
theorem standsFor_writeCoords (stands : builder.StandsFor actions)
    {coordinates : QubitMap (List Float)}
    (written : builder.appendAll (coordinates.entries.map coordsInstruction) = .ok next) :
    next.StandsFor (actions ++ (qubitCoords coordinates).actions) := by
  have nothing : (coordinates.entries.map coordsInstruction).flatMap Instruction.actions = [] := by
    rw [List.flatMap_map]
    exact List.flatMap_eq_nil_iff.mpr fun _ _ => rfl
  have declared := stands.appendAll (fun instruction member => ?_) written
  · rwa [nothing] at declared
  · obtain ⟨entry, -, rfl⟩ := List.mem_map.mp member
    exact formsProducts_of_ne (by simp [coordsInstruction, Instruction.gate?, Operator.gate?])

/-- Writing detectors and observables. -/
theorem standsFor_writeParity (stands : builder.StandsFor actions)
    {instructions : List Instruction} (formed : (parity instructions).Formed)
    (written : builder.appendAll instructions = .ok next) :
    next.StandsFor (actions ++ (parity instructions).actions) := by
  have each : ∀ instruction ∈ instructions, instruction.isParity = true := formed
  have others : ∀ instruction ∈ instructions, instruction.gate? ≠ some .measureProduct := by
    intro instruction member measures
    have named := each instruction member
    simp [Instruction.isParity, measures] at named
  have listed := stands.appendAll
    (fun instruction member => formsProducts_of_ne (others instruction member)) written
  refine listed.of_agrees ((Agrees.refl actions).append ?_)
  rw [Layer.actions, List.map_eq_flatMap]
  exact Agrees.flatMap fun instruction member =>
    actions_of_isParity (each instruction member) ▸ .refl _

/-- Writing a layer other than a loop. -/
theorem standsFor_writeFlat (stands : builder.StandsFor actions) {layer : Layer}
    (formed : layer.Formed) (flat : layer.isLoop = false)
    (written : layer.writeFlat builder = .ok next) : next.StandsFor (actions ++ layer.actions) := by
  -- Instructions that measure no products can be joined to any before them. Whole products stay
  -- side by side.
  cases layer with
  | reset targets =>
    refine standsFor_fuseAll stands (fun instruction member => ?_)
      (agrees_resetInstructions targets) written
    obtain ⟨basis, -, made⟩ := List.mem_filterMap.mp member
    split at made
    · cases made
    · obtain rfl := Option.some.inj made
      simp
  | measure targets =>
    refine standsFor_fuseAll stands (fun instruction member => ?_) ?_ written
    · obtain ⟨target, -, rfl⟩ := List.mem_map.mp member
      simp [measureInstruction]
    · rw [List.flatMap_map, Layer.actions, List.map_eq_flatMap]
      exact .refl _
  | interact couplings =>
    refine standsFor_fuseAll stands (fun instruction member => ?_)
      (Coupling.agrees_instructions formed) written
    obtain ⟨coupling, -, rfl⟩ := List.mem_map.mp member
    simp [Coupling.instruction, Coupling.gate]
  | interactSwap couplings =>
    refine standsFor_fuseAll stands (fun instruction member => ?_)
      (Coupling.agrees_swapInstructions formed) written
    obtain ⟨gate, targets, other, rfl⟩ := exists_of_mem_swapInstructions member
    simpa using other
  | swap pairs =>
    refine standsFor_fuseAll stands (fun instruction member => ?_)
      (agrees_exchangeInstructions formed (fun _ => rfl) (fun _ => rfl) fun _ _ => rfl) written
    obtain ⟨pair, -, rfl⟩ := List.mem_map.mp member
    simp
  | iswap pairs =>
    refine standsFor_fuseAll stands (fun instruction member => ?_)
      (agrees_exchangeInstructions formed (fun _ => rfl) (fun _ => rfl) fun _ _ => rfl) written
    obtain ⟨pair, -, rfl⟩ := List.mem_map.mp member
    simp
  | sqrtProduct pairs =>
    refine standsFor_fuseAll stands (fun instruction member => ?_)
      (SqrtPair.agrees_instructions formed) written
    obtain ⟨pair, -, rfl⟩ := List.mem_map.mp member
    simp [SqrtPair.instruction]
  | feedback entries =>
    refine standsFor_fuseAll stands (fun instruction member => ?_) ?_ written
    · obtain ⟨entry, -, rfl⟩ := List.mem_map.mp member
      simp [feedbackInstruction]
    · rw [List.flatMap_map, Layer.actions, List.map_eq_flatMap]
      refine Agrees.flatMap fun entry member => ?_
      exact actions_feedbackInstruction (formed entry member) ▸ .refl _
  | rotation rotations =>
    refine standsFor_fuseAll stands (fun instruction member => ?_)
      (agrees_rotationInstructions rotations) written
    obtain ⟨gate, targets, other, rfl⟩ := exists_of_mem_rotationInstructions member
    simpa using other
  | product targets =>
    have sideBySide : (Instruction.on .measureProduct targets).FormsProducts := fun _ => formed
    exact stands.fuse sideBySide written
  | parity instructions => exact standsFor_writeParity stands formed written
  | qubitCoords coordinates => exact standsFor_writeCoords stands written
  | shiftCoords shift =>
    have other : (⟨.known .shiftCoords, [], shift⟩ : Instruction).gate? ≠ some .measureProduct := by
      simp [Instruction.gate?, Operator.gate?]
    exact stands.append (formsProducts_of_ne other) written
  | empty =>
    obtain rfl := Except.ok.inj written
    simpa [Layer.actions] using stands
  | loop _ _ => simp [isLoop] at flat

/-- Writing a tick. -/
theorem standsFor_tick (stands : builder.StandsFor actions) (written : builder.tick = .ok next) :
    next.StandsFor actions := by
  have ticked := stands.append (formsProducts_of_ne (by simp [Instruction.tick])) written
  have nothing : Instruction.tick.actions = [] := rfl
  rwa [nothing, List.append_nil] at ticked

/-- Writing a tick where one is owed. -/
theorem standsFor_writeTick (stands : builder.StandsFor actions) {owed : Bool} {layer : Layer}
    (written : writeTick builder owed layer = .ok next) : next.StandsFor actions := by
  rw [writeTick] at written
  split at written
  · exact standsFor_tick stands written
  · exact (Except.ok.inj written) ▸ stands

/-- Writing a block of what a body does. -/
theorem standsFor_appendBlock (stands : builder.StandsFor actions) {inner : Builder}
    {body : List Action} (within : inner.StandsFor body) (repetitions : UInt64) :
    (builder.appendBlock repetitions inner.circuit).StandsFor
      (actions ++ repeated repetitions.toNat body) := by
  have sound : ∀ instruction ∈ (Operation.block repetitions inner.circuit).instructions,
      instruction.Sound := within.1
  exact (stands.push sound).of_agrees
    ((Agrees.refl actions).append (within.2.repeated repetitions.toNat))

mutual

/-- Writing a layer. -/
theorem standsFor_write {builder next : Builder} {actions : List Action}
    (stands : builder.StandsFor actions) {layer : Layer} (formed : layer.Formed)
    (written : layer.write builder = .ok next) : next.StandsFor (actions ++ layer.actions) := by
  cases layer with
  | loop repetitions body =>
    rw [write] at written
    split at written
    · cases written
    · rename_i inner bodyWritten
      have within : inner.StandsFor (actionsAll body) :=
        standsFor_writeAll Builder.StandsFor.empty formed bodyWritten
      split at written
      · split at written
        · cases written
        · rename_i closed ticked
          obtain rfl := Except.ok.inj written
          exact standsFor_appendBlock stands (standsFor_tick within ticked) repetitions
      · obtain rfl := Except.ok.inj written
        exact standsFor_appendBlock stands within repetitions
  | reset _ | measure _ | interact _ | interactSwap _ | swap _ | iswap _ | sqrtProduct _
  | feedback _ | rotation _ | product _ | parity _ | qubitCoords _ | shiftCoords _ | empty =>
    exact standsFor_writeFlat stands formed rfl written

/-- Writing layers with the ticks between them. -/
theorem standsFor_writeAll {builder next : Builder} {actions : List Action}
    (stands : builder.StandsFor actions) {owed : Bool} {layers : List Layer}
    (formed : AllFormed layers) (written : writeAll builder owed layers = .ok next) :
    next.StandsFor (actions ++ actionsAll layers) := by
  cases layers with
  | nil =>
    obtain rfl := Except.ok.inj written
    simpa [actionsAll] using stands
  | cons first rest =>
    rw [writeAll] at written
    split at written
    · cases written
    · rename_i ticked tickWritten
      split at written
      · cases written
      · rename_i middle firstWritten
        have here := standsFor_write (standsFor_writeTick stands tickWritten) formed.1 firstWritten
        have whole := standsFor_writeAll here formed.2 written
        rwa [List.append_assoc] at whole

end

end Layer

/-- The circuit of a formed schedule is sound and does what the schedule does. -/
theorem Schedule.agrees_toCircuit {schedule : Schedule} {circuit : Circuit}
    (formed : Layer.AllFormed schedule) (written : schedule.toCircuit = .ok circuit) :
    circuit.Valid ∧ circuit.FormsProducts ∧ Agrees circuit.actions schedule.actions := by
  rw [Schedule.toCircuit] at written
  split at written
  · cases written
  · rename_i builder layersWritten
    obtain rfl := Except.ok.inj written
    obtain ⟨sound, same⟩ := Layer.standsFor_writeAll Builder.StandsFor.empty formed layersWritten
    exact ⟨fun instruction member => (sound instruction member).1,
      fun instruction member => (sound instruction member).2, same⟩

end StabilizerLayers
