import StabilizerLayers.Proofs.Schedule.Entries
import StabilizerLayers.Schedule.Census

/-!
# The canonical vocabulary

Once all resets, measurements and couplings act along Z, few instructions are needed:
ticks and annotations, rotations and resets of plain qubits, measurements, product
measurements, a handful of gates on pairs of plain qubits, and Paulis under the control
of classical bits. None but annotations has arguments.

Putting every layer into its Z-basis form brings a schedule there, and no pass leads
back. All lines of such a schedule belong to the vocabulary, also after instructions
have been joined.
-/

namespace StabilizerLayers

/-! ### Instructions -/

namespace Target

/-- Whether the target is a qubit without an operator that is not inverted. -/
def isPlain : Target → Bool
  | qubit _ inverted => !inverted
  | _ => false

/-- Whether targets come in pairs of which each passes a test. -/
def inPairs (test : Target → Target → Bool) : List Target → Bool
  | [] => true
  | [_] => false
  | first :: second :: rest => test first second && inPairs test rest

/-- Whether two targets are plain qubits. -/
def arePlain (first second : Target) : Bool := first.isPlain && second.isPlain

/-- Whether two targets are a classical bit and a plain qubit. -/
def isControlled (first second : Target) : Bool := first.isClassical && second.isPlain

/-- Pairs one after the other. -/
theorem inPairs_append {test : Target → Target → Bool} {first second : List Target}
    (here : inPairs test first = true) (there : inPairs test second = true) :
    inPairs test (first ++ second) = true := by
  fun_induction inPairs test first with
  | case1 => exact there
  | case2 => cases here
  | case3 one two rest inductionHypothesis =>
    obtain ⟨passed, later⟩ := Bool.and_eq_true_iff.mp here
    exact Bool.and_eq_true_iff.mpr ⟨passed, inductionHypothesis later⟩

end Target

namespace Gate

/-- Whether the vocabulary has a gate on these targets, none of them classical. -/
def takesQubits : Gate → List Target → Bool
  | exchange _, targets | cycleXYZ, targets | cycleZYX, targets | reset .Z, targets =>
    targets.all Target.isPlain
  | measure .Z, targets => targets.all Target.isQubit
  | measureProduct, targets => targets.all fun target => target.isPauli || target == .combiner
  | controlled .Z .Z, targets | swap, targets | iswap, targets | czSwap, targets
  | sqrtProduct .Z _, targets => Target.inPairs Target.arePlain targets
  | _, _ => false

/-- Whether the vocabulary has a gate on these targets as feedback. -/
def takesFeedback : Gate → List Target → Bool
  | controlled .Z _, targets => Target.inPairs Target.isControlled targets
  | _, _ => false

/-- Whether the vocabulary has an annotation with these targets. -/
def annotates : Gate → List Target → Bool
  | detector, _ | observableInclude, _ | shiftCoords, _ => true
  | qubitCoords, targets => targets.all Target.isPlain
  | _, _ => false

end Gate

namespace Instruction

/-- Whether an instruction belongs to the canonical vocabulary. -/
def isCanonical (instruction : Instruction) : Bool :=
  instruction.gate?.any fun gate =>
    gate.annotates instruction.targets ||
      (instruction.arguments.isEmpty &&
        ((gate == .tick && instruction.targets.isEmpty) ||
          gate.takesQubits instruction.targets || gate.takesFeedback instruction.targets))

/-- Whether an instruction has no arguments and a gate that takes its targets. -/
def Has (takes : Gate → List Target → Bool) (instruction : Instruction) : Prop :=
  instruction.arguments = [] ∧
    ∃ gate, instruction.gate? = some gate ∧ takes gate instruction.targets = true

/-- A joint instruction has targets that its gate takes, if both parts have. -/
theorem Has.withTargets {takes : Gate → List Target → Bool}
    (append : ∀ {gate first second}, takes gate first = true → takes gate second = true →
      takes gate (first ++ second) = true)
    {first second : Instruction} (fuses : Builder.fuses first second = true)
    (here : first.Has takes) (there : second.Has takes) :
    (first.withTargets second.targets).Has takes := by
  obtain ⟨free, gate, applied, taken⟩ := here
  obtain ⟨-, other, otherApplied, otherTaken⟩ := there
  obtain ⟨joint, firstApplied, secondApplied, -⟩ := gate?_of_fuses fuses
  obtain rfl : gate = joint := Option.some.inj (applied.symm.trans firstApplied)
  obtain rfl : other = gate := Option.some.inj (otherApplied.symm.trans secondApplied)
  exact ⟨free, other, applied, append taken otherTaken⟩

/-- Targets that a gate takes can stand one after the other. -/
theorem takesQubits_append {gate : Gate} {first second : List Target}
    (here : gate.takesQubits first = true) (there : gate.takesQubits second = true) :
    gate.takesQubits (first ++ second) = true := by
  revert here there
  fun_cases Gate.takesQubits gate first with
  | case1 | case2 | case3 | case4 | case5 | case6 =>
    intro here there
    simp only [Gate.takesQubits, List.all_append, Bool.and_eq_true] at here there ⊢
    exact ⟨here, there⟩
  | case7 | case8 | case9 | case10 | case11 => exact Target.inPairs_append
  | case12 => nofun

/-- Feedback targets of a gate can stand one after the other. -/
theorem takesFeedback_append {gate : Gate} {first second : List Target}
    (here : gate.takesFeedback first = true) (there : gate.takesFeedback second = true) :
    gate.takesFeedback (first ++ second) = true := by
  revert here there
  fun_cases Gate.takesFeedback gate first with
  | case1 => exact Target.inPairs_append
  | case2 => nofun

/-- What a gate of the vocabulary takes makes a canonical instruction. -/
theorem isCanonical_of_takesQubits {instruction : Instruction}
    (has : instruction.Has Gate.takesQubits) : instruction.isCanonical = true := by
  obtain ⟨free, gate, applied, taken⟩ := has
  simp [isCanonical, applied, free, taken]

/-- Feedback of the vocabulary makes a canonical instruction. -/
theorem isCanonical_of_takesFeedback {instruction : Instruction}
    (has : instruction.Has Gate.takesFeedback) : instruction.isCanonical = true := by
  obtain ⟨free, gate, applied, taken⟩ := has
  simp [isCanonical, applied, free, taken]

end Instruction

/-! ### Layers along Z -/

namespace Layer

/-- Whether a layer acts along Z only. -/
def AlongZ (layer : Layer) : Prop := layer.isCanonical = true

/-- Merged layers act along Z if both parts do. -/
theorem alongZ_absorb? {first second both : Layer} (found : first.absorb? second = some both)
    (here : first.AlongZ) (there : second.AlongZ) : both.AlongZ := by
  cases absorbs_of_absorb? found with
  | reset =>
    simp only [AlongZ, isCanonical, QubitMap.values, List.all_map, List.all_eq_true] at *
    intro entry member
    rcases QubitMap.mem_insertAll member with old | new
    · exact here entry old
    · exact there entry new
  | measure | interact | interactSwap | sqrtProduct =>
    simp only [AlongZ, isCanonical, List.all_append, Bool.and_eq_true] at *
    exact ⟨here, there⟩
  | swap | iswap | feedback | rotation | product | parity | qubitCoords | shiftCoords => rfl

/-- Acting along Z survives every pass. -/
theorem stable_alongZ : Stable AlongZ where
  empty := rfl
  rotation _ := rfl
  absorb := alongZ_absorb?
  feedback _ _ _ := rfl
  interactSwap here := here
  swapInteract here := by
    simpa [AlongZ, isCanonical, couplingsBeforeSwap, Coupling.isZ] using here
  swaps _ _ _ := rfl
  zForm flat here := by
    have stays : Layer.zForm _ = [_] := if_pos here
    rw [stays]
    exact ⟨(within_of_flat flat).mpr here, trivial⟩
  coords _ := rfl

/-- The Z-basis form of a layer other than a loop acts along Z. -/
theorem everywhere_alongZ_zForm {layer : Layer} (flat : layer.isLoop = false) :
    Everywhere AlongZ layer.zForm := by
  fun_cases zForm layer with
  | case1 layer canonical => exact ⟨(within_of_flat flat).mpr canonical, trivial⟩
  | case2 | case3 | case4 | case5 | case6 =>
    refine everywhere_between (fun _ => rfl) _ _ ?_
    simp [Within, AlongZ, isCanonical, QubitMap.values, QubitMap.mapValues, Coupling.isZ,
      Coupling.toZ]
  | case7 layer outside => cases layer <;> simp_all [isCanonical, isLoop]

end Layer

namespace Schedule

/-- The Z-basis form of a schedule acts along Z everywhere. -/
theorem everywhere_alongZ_zForm (schedule : Schedule) :
    Layer.Everywhere Layer.AlongZ schedule.zForm := by
  refine Layer.everywhere_everyLevel (fun layers inBodies => ?_) schedule
  refine Layer.everywhere_iff.mpr fun layer member => ?_
  obtain ⟨source, listed, made⟩ := List.mem_flatMap.mp member
  cases loop : source.isLoop with
  | false => exact Layer.everywhere_iff.mp (Layer.everywhere_alongZ_zForm loop) layer made
  | true =>
    rw [Layer.zForm_of_isLoop loop] at made
    obtain rfl := List.mem_singleton.mp made
    exact inBodies layer listed loop

/-- A schedule is found to act along Z exactly if it does so everywhere. -/
theorem outsideZBasis?_eq_none_iff {schedule : Schedule} :
    schedule.outsideZBasis? = none ↔ Layer.Everywhere Layer.AlongZ schedule := by
  rw [outsideZBasis?, List.find?_eq_none, Layer.everywhere_iff_flattened]
  refine forall₂_congr fun layer _ => ?_
  simp [Layer.AlongZ]

end Schedule

/-! ### Lines of layers along Z -/

/-- Plain qubits are plain. -/
theorem Target.all_isPlain_map (ids : List Qubit) : (ids.map plain).all isPlain = true := by
  simp [plain, isPlain]

/-- The operands of a coupling along Z act along Z in writing order too. -/
theorem Coupling.bases_of_mem_sorted {couplings : List Coupling}
    (alongZ : couplings.all isZ = true) {coupling : Coupling}
    (member : coupling ∈ sorted couplings) :
    coupling.first.basis = .Z ∧ coupling.second.basis = .Z := by
  obtain ⟨original, listed, rfl⟩ := List.mem_map.mp ((sortByKey_perm key _).mem_iff.mp member)
  obtain ⟨first, second⟩ : original.first.basis = .Z ∧ original.second.basis = .Z := by
    simpa [isZ] using List.all_eq_true.mp alongZ original listed
  rw [canonical]
  split
  · exact ⟨second, first⟩
  · exact ⟨first, second⟩

/-- A coupling along Z has a gate of its own for the exchange. -/
theorem Coupling.swapGate?_of_mem_sorted {couplings : List Coupling}
    (alongZ : couplings.all isZ = true) {coupling : Coupling}
    (member : coupling ∈ sorted couplings) : coupling.swapGate? = some .czSwap := by
  obtain ⟨first, second⟩ := bases_of_mem_sorted alongZ member
  simp [swapGate?, first, second]

namespace Layer

variable {layer : Layer} {instruction : Instruction}

/-- Metadata is written as annotations. -/
theorem isCanonical_of_metadata (follows : layer.Follows .grouped)
    (metadata : layer.isMetadata = true) (member : instruction ∈ layer.pieces) :
    instruction.isCanonical = true := by
  cases layer with
  | parity instructions =>
    have named : instruction.isParity = true := follows instruction member
    rw [Instruction.isParity, Bool.or_eq_true, beq_iff_eq, beq_iff_eq] at named
    rcases named with applied | applied
    · simp [Instruction.isCanonical, applied, Gate.annotates]
    · simp [Instruction.isCanonical, applied, Gate.annotates]
  | qubitCoords coordinates =>
    obtain ⟨entry, -, rfl⟩ := List.mem_map.mp member
    rfl
  | shiftCoords shift =>
    obtain rfl := List.mem_singleton.mp member
    rfl
  | reset _ | measure _ | interact _ | interactSwap _ | swap _ | iswap _ | sqrtProduct _
  | feedback _ | rotation _ | product _ | empty | loop _ _ => cases metadata

/-- Feedback is written as feedback of the vocabulary. -/
theorem takesFeedback_of_mem {entries : List Feedback}
    (follows : (feedback entries).Follows .grouped)
    (member : instruction ∈ (feedback entries).pieces) : instruction.Has Gate.takesFeedback := by
  obtain ⟨entry, listed, rfl⟩ := List.mem_map.mp member
  refine ⟨rfl, .controlled .Z entry.basis, rfl, ?_⟩
  simp [Gate.takesFeedback, feedbackInstruction, Instruction.on, Target.inPairs,
    Target.isControlled, follows entry listed, Target.plain, Target.isPlain]

/-- Other layers along Z are written with gates of the vocabulary on qubits. -/
theorem takesQubits_of_mem (follows : layer.Follows .grouped) (alongZ : layer.AlongZ)
    (timed : layer.isMetadata = false) (quantum : layer.kind ≠ .feedback)
    (member : instruction ∈ layer.pieces) : instruction.Has Gate.takesQubits := by
  cases layer with
  | reset targets =>
    obtain ⟨basis, ids, held, rfl⟩ := exists_of_mem_resetInstructions member
    obtain rfl : basis = .Z := by simpa using List.all_eq_true.mp alongZ basis held
    exact ⟨rfl, _, rfl, Target.all_isPlain_map ids⟩
  | measure targets =>
    obtain ⟨target, listed, rfl⟩ := List.mem_map.mp member
    have basis : target.basis = .Z := by simpa using List.all_eq_true.mp alongZ target listed
    refine ⟨rfl, .measure .Z, by simp [measureInstruction, basis], rfl⟩
  | interact couplings =>
    obtain ⟨coupling, listed, rfl⟩ := List.mem_map.mp member
    obtain ⟨first, second⟩ := Coupling.bases_of_mem_sorted alongZ listed
    refine ⟨rfl, .controlled .Z .Z, ?_, rfl⟩
    simp [Coupling.instruction, Coupling.gate, first, second]
  -- Along Z a single gate does both, so nothing is written in two parts.
  | interactSwap couplings =>
    obtain ⟨coupling, listed, made⟩ := Coupling.cases_of_mem_swapInstructions member
    have performs := Coupling.swapGate?_of_mem_sorted alongZ listed
    rcases made with ⟨gate, found, rfl⟩ | ⟨none, -⟩
    · obtain rfl : .czSwap = gate := Option.some.inj (performs.symm.trans found)
      exact ⟨rfl, .czSwap, rfl, rfl⟩
    · cases performs.symm.trans none
  | swap pairs | iswap pairs =>
    obtain ⟨pair, -, rfl⟩ := List.mem_map.mp member
    exact ⟨rfl, _, rfl, rfl⟩
  | sqrtProduct pairs =>
    obtain ⟨pair, listed, rfl⟩ := List.mem_map.mp member
    have held := (sortByKey_perm SqrtPair.key _).mem_iff.mp listed
    have basis : pair.basis = .Z := by simpa using List.all_eq_true.mp alongZ pair held
    refine ⟨rfl, .sqrtProduct .Z pair.dagger, ?_, rfl⟩
    simp [SqrtPair.instruction, basis]
  | rotation rotations =>
    obtain ⟨turn, gate, ids, performs, rfl⟩ := RotationLayer.exists_of_mem_instructions member
    refine ⟨rfl, gate, rfl, ?_⟩
    cases turn with
    | identity => cases performs
    | exchange _ | cycleXYZ | cycleZYX =>
      obtain rfl := Option.some.inj performs
      exact Target.all_isPlain_map ids
  | product targets =>
    obtain rfl := List.mem_singleton.mp member
    exact ⟨rfl, .measureProduct, rfl, List.all_eq_true.mpr follows⟩
  | feedback _ => exact absurd rfl quantum
  | parity _ | qubitCoords _ | shiftCoords _ => cases timed
  | empty | loop _ _ => cases member

/-- All lines of a layer along Z belong to the vocabulary. -/
theorem isCanonical_of_mem_lines (follows : layer.Follows .grouped) (alongZ : layer.AlongZ)
    (member : instruction ∈ layer.lines) : instruction.isCanonical = true := by
  rw [lines] at member
  split at member
  · rename_i metadata
    exact isCanonical_of_metadata follows metadata member
  · rename_i timed
    by_cases quantum : layer.kind = .feedback
    · cases layer with
      | feedback entries =>
        refine Instruction.isCanonical_of_takesFeedback ?_
        exact Instruction.forall_mem_joined
          (Instruction.Has.withTargets Instruction.takesFeedback_append)
          (fun piece listed => takesFeedback_of_mem follows listed) instruction member
      | reset _ | measure _ | interact _ | interactSwap _ | swap _ | iswap _ | sqrtProduct _
      | rotation _ | product _ | parity _ | qubitCoords _ | shiftCoords _ | empty | loop _ _ =>
        cases quantum
    · refine Instruction.isCanonical_of_takesQubits ?_
      exact Instruction.forall_mem_joined
        (Instruction.Has.withTargets Instruction.takesQubits_append)
        (fun piece listed => takesQubits_of_mem follows alongZ (Bool.eq_false_iff.mpr timed) quantum
          listed) instruction member

end Layer

/-- All instructions of a schedule along Z belong to the vocabulary. -/
theorem Schedule.isCanonical_of_mem_operations {schedule : Schedule}
    (follows : Layer.Everywhere (Layer.Follows .grouped) schedule)
    (alongZ : Layer.Everywhere Layer.AlongZ schedule) :
    ∀ instruction ∈ Operation.instructionsAll schedule.operations,
      instruction.isCanonical = true := by
  have tick : Instruction.tick.isCanonical = true := rfl
  refine Layer.forall_mem_operationsAll tick false ((follows.and alongZ).imp ?_)
  intro layer _ ⟨ruled, canonical⟩ instruction member
  exact Layer.isCanonical_of_mem_lines ruled canonical member

end StabilizerLayers
