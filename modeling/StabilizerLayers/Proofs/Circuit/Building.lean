import StabilizerLayers.Circuit.Builder
import StabilizerLayers.Proofs.Schedule.InstructionLayers

/-!
# Built circuits

A builder only writes valid instructions. An instruction that joins the one
before it gives a valid instruction again, which does what both did one after the
other: its targets are those of both, and pairs and products are not cut
differently where the two meet.
-/

namespace StabilizerLayers

/-! ### Joint instructions -/

/-- Pairs of two lists one after the other, if the first has no odd entry. -/
theorem consecutivePairs_append {α : Type} {first : List α} (even : first.length % 2 = 0)
    (second : List α) :
    consecutivePairs (first ++ second) = consecutivePairs first ++ consecutivePairs second := by
  fun_induction consecutivePairs first with
  | case1 one two rest inductionHypothesis =>
    have shorter : rest.length % 2 = 0 := by
      simp only [List.length_cons] at even
      omega
    simp [consecutivePairs, inductionHypothesis shorter]
  | case2 entries short =>
    rcases entries with _ | ⟨one, _ | ⟨two, rest⟩⟩
    · rfl
    · simp at even
    · exact absurd rfl (short one two rest)

namespace Instruction

/-- A gate on targets applies that gate. -/
@[simp]
theorem gate?_on (gate : Gate) (targets : List Target) : (on gate targets).gate? = some gate := rfl

/-- A gate on qubits applies that gate. -/
@[simp]
theorem gate?_onQubits (gate : Gate) (ids : List Qubit) : (onQubits gate ids).gate? = some gate :=
  rfl

/-- Checks of pairs one after the other. -/
theorem validatePairs_append {gate : Gate} {first second : List (Target × Target)}
    (here : validatePairs gate first = .ok ()) (there : validatePairs gate second = .ok ()) :
    validatePairs gate (first ++ second) = .ok () := by
  induction first with
  | nil => exact there
  | cons pair rest inductionHypothesis =>
    rw [validatePairs] at here
    split at here
    · cases here
    · rename_i passed
      rw [List.cons_append, validatePairs, passed]
      exact inductionHypothesis here

/-- A test that all targets pass, as a statement. -/
theorem requireAll_eq_ok {gate : Gate} {accepts : Target → Bool} {targets : List Target} :
    requireAll gate accepts targets = .ok () ↔ ∀ target ∈ targets, accepts target = true := by
  rw [requireAll]
  split
  · rename_i target found
    have refused := List.find?_some found
    have member := List.mem_of_find?_eq_some found
    simp only [reduceCtorEq, false_iff]
    intro all
    simp [all target member] at refused
  · rename_i none
    simpa using none

/-- A valid instruction on pairs has an even number of targets. -/
theorem even_of_validateTargets {gate : Gate} {targets : List Target}
    (paired : gate.shape = .pair) (valid : validateTargets gate targets = .ok ()) :
    targets.length % 2 = 0 := by
  simp only [validateTargets, paired] at valid
  split at valid
  · cases valid
  · rename_i even
    simpa using even

/-- Valid targets of one gate can stand one after the other. -/
theorem validateTargets_append {gate : Gate} {first second : List Target}
    (here : validateTargets gate first = .ok ()) (there : validateTargets gate second = .ok ()) :
    validateTargets gate (first ++ second) = .ok () := by
  cases shape : gate.shape with
  | none =>
    simp only [validateTargets, shape] at *
    split at here
    · rename_i noFirst
      split at there
      · rename_i noSecond
        simp [List.isEmpty_iff.mp noFirst, List.isEmpty_iff.mp noSecond]
      · cases there
    · cases here
  | single | free =>
    simp only [validateTargets, shape, requireAll_eq_ok] at *
    intro target member
    rcases List.mem_append.mp member with before | after
    · exact here target before
    · exact there target after
  | pair =>
    have evenFirst := even_of_validateTargets shape here
    have evenSecond := even_of_validateTargets shape there
    simp only [validateTargets, shape, evenFirst, evenSecond] at here there ⊢
    rw [consecutivePairs_append evenFirst]
    have even : (first ++ second).length % 2 = 0 := by
      rw [List.length_append]
      omega
    simp only [even]
    exact validatePairs_append here there

/-- An instruction with further targets. -/
def withTargets (instruction : Instruction) (targets : List Target) : Instruction :=
  { instruction with targets := instruction.targets ++ targets }

/-- What a gate does to targets one after the other, if it may be joined. -/
theorem gateActions_withTargets {first second : Instruction} {gate : Gate}
    (fusable : gate.isFusable = true)
    (even : gate.shape = .pair → first.targets.length % 2 = 0)
    (products : gate = .measureProduct →
      products (first.targets ++ second.targets) =
        products first.targets ++ products second.targets) :
    (first.withTargets second.targets).gateActions gate =
      first.gateActions gate ++ second.gateActions gate := by
  have pairs : gate.shape = .pair →
      (first.withTargets second.targets).targetPairs = first.targetPairs ++ second.targetPairs :=
    fun paired => consecutivePairs_append (even paired) second.targets
  have qubitPairs : gate.shape = .pair → (first.withTargets second.targets).qubitPairs =
      first.qubitPairs ++ second.qubitPairs := by
    intro paired
    rw [Instruction.qubitPairs, pairs paired, List.filterMap_append]
    rfl
  -- Gates act target by target, pair by pair or product by product.
  cases gate with
  | reset _ | measure _ | measureReset _ | identity | pauli _ | exchange _ | sqrtPauli _ _
  | cycleXYZ | cycleZYX =>
    exact List.flatMap_append
  | measureProduct =>
    simp only [gateActions, withTargets]
    rw [products rfl, List.map_append]
  | controlled _ _ =>
    simp only [gateActions]
    rw [pairs rfl, List.flatMap_append]
  | swap | iswap | sqrtProduct _ _ =>
    simp only [gateActions]
    rw [qubitPairs rfl, List.map_append]
  | cxSwap | swapCx | czSwap =>
    simp only [gateActions]
    rw [qubitPairs rfl, List.flatMap_append]
  | detector | observableInclude | tick | qubitCoords | shiftCoords | correlatedError
  | elseCorrelatedError => cases fusable
  | iswapDag | pauliError _ | depolarize1 | depolarize2 | pauliChannel1 | pauliChannel2 => rfl

/-- Whether an instruction is valid and, if it measures products, measures them
    side by side. -/
def Sound (instruction : Instruction) : Prop :=
  instruction.validate = .ok () ∧ instruction.FormsProducts

variable {first second : Instruction}

/-- Instructions that may be joined apply one gate, which allows it. -/
theorem gate?_of_fuses (fuses : Builder.fuses first second = true) :
    ∃ gate, first.gate? = some gate ∧ second.gate? = some gate ∧ gate.isFusable = true := by
  simp only [Builder.fuses, Bool.and_eq_true, beq_iff_eq] at fuses
  obtain ⟨⟨allowed, same⟩, -⟩ := fuses
  obtain ⟨gate, applied, fusable⟩ := (Option.any_eq_true _ _).mp allowed
  exact ⟨gate, by rw [gate?, same]; exact applied, applied, fusable⟩

/-- A joint instruction is valid. -/
theorem validate_withTargets (fuses : Builder.fuses first second = true)
    (firstValid : first.validate = .ok ()) (secondValid : second.validate = .ok ()) :
    (first.withTargets second.targets).validate = .ok () := by
  obtain ⟨gate, firstApplied, secondApplied, -⟩ := gate?_of_fuses fuses
  have applied : (first.withTargets second.targets).gate? = some gate := firstApplied
  rw [validate, firstApplied] at firstValid
  rw [validate, secondApplied] at secondValid
  rw [validate, applied]
  exact validateTargets_append firstValid secondValid

/-- A joint instruction is sound. -/
theorem sound_withTargets (fuses : Builder.fuses first second = true) (firstSound : first.Sound)
    (secondSound : second.Sound) : (first.withTargets second.targets).Sound := by
  obtain ⟨gate, firstApplied, secondApplied, -⟩ := gate?_of_fuses fuses
  have applied : (first.withTargets second.targets).gate? = some gate := firstApplied
  refine ⟨validate_withTargets fuses firstSound.1 secondSound.1, fun measures => ?_⟩
  obtain rfl : gate = .measureProduct := Option.some.inj (applied.symm.trans measures)
  exact (firstSound.2 firstApplied).append (secondSound.2 secondApplied)

/-- A joint instruction does what both did. -/
theorem actions_withTargets (fuses : Builder.fuses first second = true) (firstSound : first.Sound)
    (secondSound : second.Sound) :
    (first.withTargets second.targets).actions = first.actions ++ second.actions := by
  obtain ⟨gate, firstApplied, secondApplied, fusable⟩ := gate?_of_fuses fuses
  have applied : (first.withTargets second.targets).gate? = some gate := firstApplied
  rw [actions, actions, actions, applied, firstApplied, secondApplied]
  refine gateActions_withTargets fusable (fun paired => ?_) (fun measures => ?_)
  · exact (validatePairs_of_validate firstApplied paired firstSound.1).1
  · subst measures
    exact (firstSound.2 firstApplied).products_append (secondSound.2 secondApplied)

end Instruction

/-! ### Builders -/

/-- Actions of operations one after the other. -/
theorem Operation.actionsAll_append (first second : List Operation) :
    Operation.actionsAll (first ++ second) =
      Operation.actionsAll first ++ Operation.actionsAll second := by
  induction first with
  | nil => rfl
  | cons operation rest inductionHypothesis =>
    rw [List.cons_append, Operation.actionsAll, Operation.actionsAll, inductionHypothesis,
      List.append_assoc]

/-- Instructions of operations one after the other. -/
theorem Operation.instructionsAll_append (first second : List Operation) :
    Operation.instructionsAll (first ++ second) =
      Operation.instructionsAll first ++ Operation.instructionsAll second := by
  induction first with
  | nil => rfl
  | cons operation rest inductionHypothesis =>
    rw [List.cons_append, Operation.instructionsAll, Operation.instructionsAll,
      inductionHypothesis, List.append_assoc]

namespace Builder

/-- Whether a builder holds sound instructions that do what some actions do. -/
def StandsFor (builder : Builder) (actions : List Action) : Prop :=
  (∀ instruction ∈ Operation.instructionsAll builder.circuit, instruction.Sound) ∧
    Agrees builder.circuit.actions actions

namespace StandsFor

variable {builder next : Builder} {actions : List Action}

/-- Nothing written does nothing. -/
theorem empty : StandsFor .empty [] := ⟨by simp [circuit, Builder.empty, Operation.instructionsAll],
  .refl _⟩

/-- Writing an operation of sound instructions. -/
theorem push (stands : builder.StandsFor actions) {operation : Operation}
    (sound : ∀ instruction ∈ operation.instructions, instruction.Sound) :
    (builder.push operation).StandsFor (actions ++ operation.actions) := by
  refine ⟨fun instruction member => ?_, ?_⟩
  · rw [circuit_push, Operation.instructionsAll_append] at member
    rcases List.mem_append.mp member with before | here
    · exact stands.1 instruction before
    · refine sound instruction ?_
      simpa [Operation.instructionsAll] using here
  · rw [Circuit.actions, circuit_push, Operation.actionsAll_append]
    refine stands.2.append ?_
    simpa [Operation.actionsAll] using Agrees.refl operation.actions

/-- Writing a valid instruction. -/
theorem append (stands : builder.StandsFor actions) {instruction : Instruction}
    (formed : instruction.FormsProducts) (written : builder.append instruction = .ok next) :
    next.StandsFor (actions ++ instruction.actions) := by
  rw [Builder.append] at written
  split at written
  · cases written
  · rename_i valid
    obtain rfl := Except.ok.inj written
    refine stands.push fun other member => ?_
    obtain rfl := List.mem_singleton.mp member
    exact ⟨valid, formed⟩

/-- The latest instruction joined with a sound one. -/
theorem join {latest instruction : Instruction} {earlier : List Operation}
    (stands : (⟨.single latest :: earlier⟩ : Builder).StandsFor actions)
    (fuses : fuses latest instruction = true) (sound : instruction.Sound) :
    (⟨.single (latest.withTargets instruction.targets) :: earlier⟩ : Builder).StandsFor
      (actions ++ instruction.actions) := by
  obtain ⟨allSound, agrees⟩ := stands
  simp only [circuit, List.reverse_cons, Circuit.actions, Operation.actionsAll_append,
    Operation.instructionsAll_append, Operation.actionsAll, Operation.instructionsAll,
    Operation.actions, Operation.instructions, List.append_nil] at allSound agrees
  have latestSound : latest.Sound := allSound latest (by simp)
  refine ⟨fun other member => ?_, ?_⟩
  · simp only [circuit, List.reverse_cons, Operation.instructionsAll_append,
      Operation.instructionsAll, Operation.instructions, List.append_nil] at member
    rcases List.mem_append.mp member with before | here
    · exact allSound other (List.mem_append_left _ before)
    · obtain rfl := List.mem_singleton.mp here
      exact Instruction.sound_withTargets fuses latestSound sound
  · simp only [circuit, List.reverse_cons, Circuit.actions, Operation.actionsAll_append,
      Operation.actionsAll, Operation.actions, List.append_nil]
    rw [Instruction.actions_withTargets fuses latestSound sound, ← List.append_assoc]
    exact agrees.append (.refl instruction.actions)

/-- Writing a valid instruction, joined to the latest one where possible. -/
theorem fuse (stands : builder.StandsFor actions) {instruction : Instruction}
    (formed : instruction.FormsProducts) (written : builder.fuse instruction = .ok next) :
    next.StandsFor (actions ++ instruction.actions) := by
  obtain ⟨latestFirst⟩ := builder
  rw [Builder.fuse] at written
  split at written
  · cases written
  · rename_i valid
    have pushed : ((⟨latestFirst⟩ : Builder).push (.single instruction)).StandsFor
        (actions ++ instruction.actions) := by
      refine stands.push fun other member => ?_
      obtain rfl := List.mem_singleton.mp member
      exact ⟨valid, formed⟩
    split at written
    · rename_i latest earlier held
      obtain rfl : latestFirst = .single latest :: earlier := held
      split at written
      · rename_i fuses
        exact (Except.ok.inj written) ▸ stands.join fuses ⟨valid, formed⟩
      · exact (Except.ok.inj written) ▸ pushed
    · exact (Except.ok.inj written) ▸ pushed

/-- Writing instructions one by one, each joined to the latest where possible. -/
theorem fuseAll (stands : builder.StandsFor actions) {instructions : List Instruction}
    (formed : ∀ instruction ∈ instructions, instruction.FormsProducts)
    (written : builder.fuseAll instructions = .ok next) :
    next.StandsFor (actions ++ instructions.flatMap Instruction.actions) := by
  induction instructions generalizing builder actions with
  | nil =>
    obtain rfl := Except.ok.inj written
    simpa using stands
  | cons first rest inductionHypothesis =>
    rw [Builder.fuseAll] at written
    split at written
    · cases written
    · rename_i middle here
      have later := inductionHypothesis (stands.fuse (formed first (.head _)) here)
        (fun other member => formed other (.tail _ member)) written
      simpa using later

/-- Writing instructions one by one. -/
theorem appendAll (stands : builder.StandsFor actions) {instructions : List Instruction}
    (formed : ∀ instruction ∈ instructions, instruction.FormsProducts)
    (written : builder.appendAll instructions = .ok next) :
    next.StandsFor (actions ++ instructions.flatMap Instruction.actions) := by
  induction instructions generalizing builder actions with
  | nil =>
    obtain rfl := Except.ok.inj written
    simpa using stands
  | cons first rest inductionHypothesis =>
    rw [Builder.appendAll] at written
    split at written
    · cases written
    · rename_i middle here
      have later := inductionHypothesis (stands.append (formed first (.head _)) here)
        (fun other member => formed other (.tail _ member)) written
      simpa using later

/-- Actions that agree can be told instead. -/
theorem of_agrees (stands : builder.StandsFor actions) {others : List Action}
    (same : Agrees actions others) : builder.StandsFor others :=
  ⟨stands.1, stands.2.trans same⟩

end StandsFor

end Builder

end StabilizerLayers
