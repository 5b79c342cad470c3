import StabilizerLayers.Proofs.Schedule.Vocabulary

/-!
# What grouping refuses

Grouping fails only at an instruction without layers, and the failure names that
instruction. So a circuit is grouped exactly if each of its instructions, in blocks
too, is a tick or has layers.

Every instruction of the canonical vocabulary has layers. What is written in that
vocabulary can thus be grouped again.
-/

namespace StabilizerLayers

/-- A list that is not read has an entry that is not. -/
theorem exists_of_mapM_eq_error {α β ε : Type} {read : α → Except ε β} {entries : List α}
    {fault : ε} (failed : entries.mapM read = .error fault) :
    ∃ entry ∈ entries, read entry = .error fault := by
  induction entries with
  | nil => cases failed
  | cons entry rest inductionHypothesis =>
    rw [List.mapM_cons] at failed
    cases here : read entry with
    | error cause =>
      obtain rfl : cause = fault := by simpa [here, bind, Except.bind] using failed
      exact ⟨entry, .head _, here⟩
    | ok value =>
      cases later : rest.mapM read with
      | error cause =>
        obtain rfl : cause = fault := by simpa [here, later, bind, Except.bind] using failed
        obtain ⟨other, member, refused⟩ := inductionHypothesis later
        exact ⟨other, .tail _ member, refused⟩
      | ok values => simp [here, later, bind, Except.bind, pure, Except.pure] at failed

/-- A target that is no plain qubit is not plain. -/
theorem Target.isPlain_eq_false {target : Target} (other : ∀ id, target = .qubit id false → False) :
    target.isPlain = false := by
  cases target with
  | qubit id inverted =>
    cases inverted with
    | false => exact (other id rfl).elim
    | true => rfl
  | record _ | sweep _ | pauli _ _ _ | combiner => rfl

/-- A target of checked pairs passes what both places ask. -/
theorem Target.all_of_inPairs {test : Target → Target → Bool} {accepts : Target → Bool}
    (asks : ∀ first second, test first second = true →
      accepts first = true ∧ accepts second = true) {targets : List Target}
    (paired : inPairs test targets = true) : targets.all accepts = true := by
  fun_induction inPairs test targets with
  | case1 => rfl
  | case2 => cases paired
  | case3 first second rest inductionHypothesis =>
    obtain ⟨passed, later⟩ := Bool.and_eq_true_iff.mp paired
    obtain ⟨here, there⟩ := asks first second passed
    simp [here, there, inductionHypothesis later]

/-- Pairs of targets that come in pairs pass the test. -/
theorem Target.test_of_mem_consecutivePairs {test : Target → Target → Bool}
    {targets : List Target} (paired : inPairs test targets = true) {pair : Target × Target}
    (member : pair ∈ consecutivePairs targets) : test pair.1 pair.2 = true := by
  fun_induction inPairs test targets with
  | case1 | case2 => cases member
  | case3 first second rest inductionHypothesis =>
    obtain ⟨passed, later⟩ := Bool.and_eq_true_iff.mp paired
    rcases List.mem_cons.mp member with rfl | further
    · exact passed
    · exact inductionHypothesis later further

namespace Instruction

variable {instruction : Instruction} {fault : TransformError}

/-- Whether a failure is a refusal of this instruction. -/
def Refuses (instruction : Instruction) (fault : TransformError) : Prop :=
  ∃ reason, fault = .unsupported instruction reason

/-! ### Failures name their instruction -/

/-- A refusal refuses. -/
theorem refuses_of_refused {α : Type} {reason : Unsupported}
    (failed : instruction.refused reason = (.error fault : Except TransformError α)) :
    instruction.Refuses fault :=
  ⟨reason, (Except.error.inj failed).symm⟩

/-- Reading plain qubits fails at a target that is none. -/
theorem plainQubits_eq_error (failed : instruction.plainQubits = .error fault) :
    instruction.Refuses fault ∧ ∃ target ∈ instruction.targets, target.isPlain = false := by
  obtain ⟨target, member, here⟩ := exists_of_mapM_eq_error failed
  cases target with
  | qubit id inverted =>
    cases inverted with
    | false => cases here
    | true => exact ⟨refuses_of_refused here, _, member, rfl⟩
  | record _ | sweep _ | pauli _ _ _ | combiner =>
    exact ⟨refuses_of_refused here, _, member, rfl⟩

/-- Reading a measurement or reset fails because of its arguments or targets. -/
theorem collapseLayers_eq_error {measured reset : Option Basis}
    (failed : instruction.collapseLayers measured reset = .error fault) :
    instruction.Refuses fault ∧
      (instruction.hasNonzeroArgument = true ∨
        (∃ target ∈ instruction.targets, target.isQubit = false) ∨
        (measured = none ∧ ∃ target ∈ instruction.targets, target.isPlain = false)) := by
  simp only [collapseLayers, bind, Except.bind, pure, Except.pure, refused] at failed
  split at failed
  · rename_i noisy
    exact ⟨⟨_, (Except.error.inj failed).symm⟩, .inl noisy⟩
  · split at failed
    · rename_i cause unread
      obtain rfl := Except.error.inj failed
      obtain ⟨target, member, here⟩ := exists_of_mapM_eq_error unread
      cases target with
      | qubit id inverted => cases here
      | record _ | sweep _ | pauli _ _ _ | combiner =>
        exact ⟨⟨_, (Except.error.inj here).symm⟩, .inr (.inl ⟨_, member, rfl⟩)⟩
    · rename_i targets named
      split at failed
      · rename_i inverted
        obtain ⟨unmeasured, some⟩ := Bool.and_eq_true_iff.mp inverted
        obtain ⟨value, listed, flipped⟩ := List.any_eq_true.mp some
        obtain ⟨target, member, here⟩ := exists_of_mem_mapM named listed
        refine ⟨⟨_, (Except.error.inj failed).symm⟩, .inr (.inr ⟨by simpa using unmeasured, ?_⟩)⟩
        refine ⟨target, member, ?_⟩
        cases target with
        | qubit id inverted =>
          obtain rfl := Except.ok.inj here
          simpa [Target.isPlain] using flipped
        | record _ | sweep _ | pauli _ _ _ | combiner => cases here
      · cases failed

/-- Reading pairs of plain qubits fails at a target that is none. -/
theorem plainPairs_eq_error (failed : instruction.plainPairs = .error fault) :
    instruction.Refuses fault ∧ Target.inPairs Target.arePlain instruction.targets = false := by
  obtain ⟨refuses, target, member, other⟩ :=
    plainQubits_eq_error (eq_error_of_map_eq_error failed)
  refine ⟨refuses, Bool.eq_false_iff.mpr fun paired => ?_⟩
  have plain : instruction.targets.all Target.isPlain = true :=
    Target.all_of_inPairs (fun first second asked => Bool.and_eq_true_iff.mp asked) paired
  exact Bool.false_ne_true (other.symm.trans (List.all_eq_true.mp plain target member))

/-- Reading a pair of a controlled Pauli fails where it is neither one of plain qubits
    nor one of a classical bit and a plain qubit under Z control. -/
theorem pairPart_eq_error {first second : Basis} {pair : Target × Target}
    (failed : instruction.pairPart first second pair = .error fault) :
    instruction.Refuses fault ∧ Target.arePlain pair.1 pair.2 = false ∧
      (first = .Z → Target.isControlled pair.1 pair.2 = false) := by
  revert failed
  fun_cases pairPart instruction first second pair with
  | case1 | case2 | case4 =>
    intro failed
    cases failed
  | case3 control id unfit uncoupled =>
    intro failed
    have other : control.isPlain = false :=
      Target.isPlain_eq_false fun named same => uncoupled named id same rfl
    refine ⟨refuses_of_refused failed, by simp [Target.arePlain, other], fun alongZ => ?_⟩
    have quantum : control.isClassical = false := by simpa [alongZ] using unfit
    simp [Target.isControlled, quantum]
  | case5 id control _ _ _ =>
    intro failed
    have other : control.isPlain = false := Target.isPlain_eq_false ‹_›
    refine ⟨refuses_of_refused failed, by simp [Target.arePlain, other], fun _ => ?_⟩
    simp [Target.isControlled, other]
  | case6 one two _ _ _ other =>
    intro failed
    have later : two.isPlain = false := Target.isPlain_eq_false other
    refine ⟨refuses_of_refused failed, by simp [Target.arePlain, later], fun _ => ?_⟩
    simp [Target.isControlled, later]

/-- Reading product measurements fails because of arguments or targets. -/
theorem productLayers_eq_error (failed : instruction.productLayers = .error fault) :
    instruction.Refuses fault ∧
      (instruction.hasNonzeroArgument = true ∨
        ∃ target ∈ instruction.targets, (target.isPauli || target == .combiner) = false) := by
  rw [productLayers] at failed
  split at failed
  · rename_i noisy
    exact ⟨refuses_of_refused failed, .inl noisy⟩
  · split at failed
    · rename_i target found
      refine ⟨refuses_of_refused failed, .inr ⟨target, List.mem_of_find?_eq_some found, ?_⟩⟩
      simpa using List.find?_some found
    · cases failed

/-! ### The vocabulary -/

/-- An instruction of the vocabulary that is no annotation and has a gate that does
    not take its targets is a tick. -/
theorem eq_tick_of_isCanonical {gate : Gate} (applied : instruction.gate? = some gate)
    (annotated : gate.annotates instruction.targets = false)
    (untaken : instruction.arguments = [] → gate.takesQubits instruction.targets = false ∧
      gate.takesFeedback instruction.targets = false)
    (canonical : instruction.isCanonical = true) : gate = .tick := by
  simp only [isCanonical, applied, Option.any_some, annotated, Bool.false_or, Bool.and_eq_true,
    List.isEmpty_iff] at canonical
  obtain ⟨free, taken⟩ := canonical
  obtain ⟨noQubits, noFeedback⟩ := untaken free
  rw [noQubits, noFeedback, Bool.or_false, Bool.or_false, Bool.and_eq_true, beq_iff_eq] at taken
  exact taken.1

/-- Without arguments none is nonzero. -/
theorem hasNonzeroArgument_of_nil (free : instruction.arguments = []) :
    instruction.hasNonzeroArgument = false := by
  rw [hasNonzeroArgument, free]
  rfl

/-- Plain qubits are qubits. -/
theorem all_isQubit_of_plain {targets : List Target} (plain : targets.all Target.isPlain = true) :
    targets.all Target.isQubit = true := by
  refine List.all_eq_true.mpr fun target member => ?_
  have here := List.all_eq_true.mp plain target member
  cases target with
  | qubit _ _ => rfl
  | record _ | sweep _ | pauli _ _ _ | combiner => cases here

/-- A test that some target fails is not passed by all. -/
theorem all_eq_false {accepts : Target → Bool}
    (unfit : ∃ target ∈ instruction.targets, accepts target = false) :
    instruction.targets.all accepts = false := by
  obtain ⟨target, member, other⟩ := unfit
  exact List.all_eq_false.mpr ⟨target, member, by simp [other]⟩

/-- A measurement or reset without layers is refused by name, and is outside the
    vocabulary. -/
theorem refuses_of_collapseLayers {gate : Gate} {measured reset : Option Basis}
    (applied : instruction.gate? = some gate)
    (failed : instruction.collapseLayers measured reset = .error fault)
    (annotated : gate.annotates instruction.targets = false)
    (feedback : gate.takesFeedback instruction.targets = false)
    (qubits : gate.takesQubits instruction.targets = true →
      instruction.targets.all Target.isQubit = true)
    (plain : measured = none → gate.takesQubits instruction.targets = true →
      instruction.targets.all Target.isPlain = true) :
    instruction.Refuses fault ∧ (instruction.isCanonical = true → gate = .tick) := by
  obtain ⟨refuses, cause⟩ := collapseLayers_eq_error failed
  refine ⟨refuses, eq_tick_of_isCanonical applied annotated fun free => ⟨?_, feedback⟩⟩
  refine Bool.eq_false_iff.mpr fun taken => ?_
  rcases cause with noisy | unfit | ⟨unmeasured, unfit⟩
  · exact Bool.false_ne_true ((hasNonzeroArgument_of_nil free).symm.trans noisy)
  · exact Bool.false_ne_true ((all_eq_false unfit).symm.trans (qubits taken))
  · exact Bool.false_ne_true ((all_eq_false unfit).symm.trans (plain unmeasured taken))

/-- A gate on plain qubits without layers is refused by name, and is outside the
    vocabulary. -/
theorem refuses_of_plainQubits {gate : Gate} {build : List Qubit → List Layer}
    (applied : instruction.gate? = some gate)
    (failed : instruction.plainQubits.map build = .error fault)
    (annotated : gate.annotates instruction.targets = true →
      instruction.targets.all Target.isPlain = true)
    (feedback : gate.takesFeedback instruction.targets = false)
    (qubits : gate.takesQubits instruction.targets = true →
      instruction.targets.all Target.isPlain = true) :
    instruction.Refuses fault ∧ (instruction.isCanonical = true → gate = .tick) := by
  obtain ⟨refuses, unfit⟩ := plainQubits_eq_error (eq_error_of_map_eq_error failed)
  have other := Bool.eq_false_iff.mp (all_eq_false unfit)
  refine ⟨refuses, eq_tick_of_isCanonical applied ?_ fun _ => ⟨?_, feedback⟩⟩
  · exact Bool.eq_false_iff.mpr fun listed => other (annotated listed)
  · exact Bool.eq_false_iff.mpr fun taken => other (qubits taken)

/-- A gate on plain pairs without layers is refused by name, and is outside the
    vocabulary. -/
theorem refuses_of_plainPairs {gate : Gate} {build : List (Qubit × Qubit) → List Layer}
    (applied : instruction.gate? = some gate)
    (failed : instruction.plainPairs.map build = .error fault)
    (annotated : gate.annotates instruction.targets = false)
    (feedback : gate.takesFeedback instruction.targets = false)
    (pairs : gate.takesQubits instruction.targets = true →
      Target.inPairs Target.arePlain instruction.targets = true) :
    instruction.Refuses fault ∧ (instruction.isCanonical = true → gate = .tick) := by
  obtain ⟨refuses, unfit⟩ := plainPairs_eq_error (eq_error_of_map_eq_error failed)
  refine ⟨refuses, eq_tick_of_isCanonical applied annotated fun _ => ⟨?_, feedback⟩⟩
  exact Bool.eq_false_iff.mpr fun taken => Bool.false_ne_true (unfit.symm.trans (pairs taken))

/-- A controlled Pauli without layers is refused by name, and is outside the
    vocabulary. -/
theorem refuses_of_interactionLayers {first second : Basis}
    (applied : instruction.gate? = some (.controlled first second))
    (failed : instruction.interactionLayers first second = .error fault) :
    instruction.Refuses fault ∧
      (instruction.isCanonical = true → Gate.controlled first second = .tick) := by
  obtain ⟨pair, member, here⟩ := exists_of_mapM_eq_error (eq_error_of_map_eq_error failed)
  obtain ⟨refuses, uncoupled, uncontrolled⟩ := pairPart_eq_error here
  refine ⟨refuses, eq_tick_of_isCanonical applied rfl fun _ => ⟨?_, ?_⟩⟩
  · refine Bool.eq_false_iff.mpr fun taken => ?_
    cases first <;> cases second <;> first | cases taken | skip
    exact Bool.false_ne_true
      (uncoupled.symm.trans (Target.test_of_mem_consecutivePairs taken member))
  · refine Bool.eq_false_iff.mpr fun taken => ?_
    cases first <;> first | cases taken | skip
    exact Bool.false_ne_true
      ((uncontrolled rfl).symm.trans (Target.test_of_mem_consecutivePairs taken member))

/-- A gate without layers is refused by name, and is a tick or outside the
    vocabulary. -/
theorem gateLayers_eq_error {gate : Gate} (applied : instruction.gate? = some gate)
    (failed : instruction.gateLayers gate = .error fault) :
    instruction.Refuses fault ∧ (instruction.isCanonical = true → gate = .tick) := by
  cases gate with
  | detector | observableInclude | shiftCoords => cases failed
  | qubitCoords => exact refuses_of_plainQubits applied failed id rfl nofun
  | exchange _ | cycleXYZ | cycleZYX => exact refuses_of_plainQubits applied failed nofun rfl id
  | identity | pauli _ | sqrtPauli _ _ =>
    exact refuses_of_plainQubits applied failed nofun rfl nofun
  | measureProduct =>
    obtain ⟨refuses, cause⟩ := productLayers_eq_error failed
    refine ⟨refuses, eq_tick_of_isCanonical applied rfl fun free => ⟨?_, rfl⟩⟩
    rcases cause with noisy | unfit
    · exact absurd noisy (by simp [hasNonzeroArgument_of_nil free])
    · exact all_eq_false unfit
  | swap | iswap | czSwap => exact refuses_of_plainPairs applied failed rfl rfl id
  | cxSwap | swapCx => exact refuses_of_plainPairs applied failed rfl rfl nofun
  | sqrtProduct axis dagger =>
    cases axis with
    | Z => exact refuses_of_plainPairs applied failed rfl rfl id
    | X | Y => exact refuses_of_plainPairs applied failed rfl rfl nofun
  -- The vocabulary has measurements and resets along Z only.
  | measure axis =>
    cases axis with
    | Z => exact refuses_of_collapseLayers applied failed rfl rfl id nofun
    | X | Y => exact refuses_of_collapseLayers applied failed rfl rfl nofun nofun
  | reset axis =>
    cases axis with
    | Z => exact refuses_of_collapseLayers applied failed rfl rfl all_isQubit_of_plain (fun _ => id)
    | X | Y => exact refuses_of_collapseLayers applied failed rfl rfl nofun nofun
  | measureReset _ => exact refuses_of_collapseLayers applied failed rfl rfl nofun nofun
  | controlled first second => exact refuses_of_interactionLayers applied failed
  | tick => exact ⟨refuses_of_refused failed, fun _ => rfl⟩
  | iswapDag | pauliError _ | depolarize1 | depolarize2 | pauliChannel1 | pauliChannel2
  | correlatedError | elseCorrelatedError =>
    exact ⟨refuses_of_refused failed, eq_tick_of_isCanonical applied rfl fun _ => ⟨rfl, rfl⟩⟩

/-- An instruction without layers is refused by name, and is a tick or outside the
    vocabulary. -/
theorem layers_eq_error (failed : instruction.layers = .error fault) :
    instruction.Refuses fault ∧
      (instruction.isCanonical = true → instruction.applies .tick = true) := by
  rw [layers] at failed
  split at failed
  · rename_i gate applied
    obtain ⟨refuses, tick⟩ := gateLayers_eq_error applied failed
    exact ⟨refuses, fun canonical => by simp [applies, applied, tick canonical]⟩
  · rename_i unknown
    exact ⟨refuses_of_refused failed, fun canonical => by simp [isCanonical, unknown] at canonical⟩

end Instruction

/-! ### Grouping -/

namespace Grouping

/-- An instruction is not added because it is no tick and has no layers. -/
theorem instruction_eq_error {grouping : Grouping} {instruction : Instruction}
    {fault : TransformError} (failed : grouping.instruction instruction = .error fault) :
    instruction.applies .tick = false ∧ instruction.layers = .error fault := by
  rw [Grouping.instruction] at failed
  split at failed
  · cases failed
  · rename_i other
    exact ⟨Bool.eq_false_iff.mpr other, eq_error_of_map_eq_error failed⟩

mutual

/-- An operation is not added because of an instruction without layers. -/
theorem operation_eq_error {grouping : Grouping} {operation : Operation}
    {fault : TransformError} (failed : grouping.operation operation = .error fault) :
    ∃ instruction ∈ operation.instructions,
      instruction.applies .tick = false ∧ instruction.layers = .error fault := by
  cases operation with
  | single instruction => exact ⟨instruction, .head _, instruction_eq_error failed⟩
  | block repetitions body =>
    rw [Grouping.operation] at failed
    split at failed
    · rename_i cause inner
      obtain rfl := Except.error.inj failed
      exact operations_eq_error inner
    · cases failed

/-- Operations are not added because of an instruction without layers. -/
theorem operations_eq_error {grouping : Grouping} {circuit : List Operation}
    {fault : TransformError} (failed : grouping.operations circuit = .error fault) :
    ∃ instruction ∈ Operation.instructionsAll circuit,
      instruction.applies .tick = false ∧ instruction.layers = .error fault := by
  cases circuit with
  | nil => cases failed
  | cons first rest =>
    rw [operations] at failed
    split at failed
    · rename_i cause here
      obtain rfl := Except.error.inj failed
      obtain ⟨instruction, member, refused⟩ := operation_eq_error here
      exact ⟨instruction, List.mem_append_left _ member, refused⟩
    · obtain ⟨instruction, member, refused⟩ := operations_eq_error failed
      exact ⟨instruction, List.mem_append_right _ member, refused⟩

end

end Grouping

namespace Schedule

variable {circuit : Circuit}

/-- A circuit is not grouped because of an instruction, which the failure names. -/
theorem ofCircuit_eq_error {fault : TransformError}
    (failed : Schedule.ofCircuit circuit = .error fault) :
    ∃ instruction ∈ Operation.instructionsAll circuit, instruction.Refuses fault := by
  obtain ⟨instruction, member, -, unread⟩ :=
    Grouping.operations_eq_error (eq_error_of_map_eq_error failed)
  exact ⟨instruction, member, (Instruction.layers_eq_error unread).1⟩

/-- A circuit of the canonical vocabulary is grouped. -/
theorem exists_ofCircuit_of_isCanonical
    (canonical : ∀ instruction ∈ Operation.instructionsAll circuit,
      instruction.isCanonical = true) :
    ∃ schedule, Schedule.ofCircuit circuit = .ok schedule := by
  cases grouped : Schedule.ofCircuit circuit with
  | ok schedule => exact ⟨schedule, rfl⟩
  | error fault =>
    obtain ⟨instruction, member, other, unread⟩ :=
      Grouping.operations_eq_error (eq_error_of_map_eq_error grouped)
    have tick := (Instruction.layers_eq_error unread).2 (canonical instruction member)
    cases other.symm.trans tick

end Schedule

end StabilizerLayers
