import StabilizerLayers.Proofs.Ordering
import StabilizerLayers.Proofs.Schedule.GateLayers
import StabilizerLayers.Proofs.Schedule.Operations

/-!
# Entries of layers

What grouping asks of the entries of a layer stays true in every pass: feedback has a
classical control, products consist of operators and combiners, and parity layers
hold detectors and observables. Of a valid circuit grouping asks more: the two qubits
of a pair are distinct, and detectors and observables are valid.

Both are instances of one rule for entries. It holds everywhere in a grouped circuit
and survives every pass, and a layer that follows the rule of valid circuits has
valid instructions only.
-/

namespace StabilizerLayers

/-- What is asked of pairs of qubits and of detectors and observables. -/
structure EntryRule where
  pair : Qubit → Qubit → Prop
  symm : ∀ {first second : Qubit}, pair first second → pair second first
  parity : Instruction → Prop

namespace EntryRule

/-- The rule that any grouped circuit follows. -/
def grouped : EntryRule := ⟨fun _ _ => True, id, fun instruction => instruction.isParity = true⟩

/-- The rule that a grouped circuit of valid instructions follows. -/
def valid : EntryRule :=
  ⟨fun first second => first ≠ second, Ne.symm, fun instruction =>
    instruction.isParity = true ∧ instruction.validate = .ok ()⟩

end EntryRule

namespace Layer

/-- Whether the entries of a layer follow a rule. -/
def Follows (rule : EntryRule) : Layer → Prop
  | interact couplings | interactSwap couplings =>
    ∀ coupling ∈ couplings, rule.pair coupling.first.id coupling.second.id
  | swap pairs | iswap pairs => ∀ pair ∈ pairs, rule.pair pair.1 pair.2
  | sqrtProduct pairs => ∀ pair ∈ pairs, rule.pair pair.first pair.second
  | feedback entries => ∀ entry ∈ entries, entry.control.isClassical = true
  | product targets => ∀ target ∈ targets, (target.isPauli || target == .combiner) = true
  | parity instructions => ∀ instruction ∈ instructions, rule.parity instruction
  | _ => True

variable {rule : EntryRule}

/-! ### Passes -/

/-- Merged layers follow a rule that both parts follow. -/
theorem follows_absorb? {first second both : Layer} (found : first.absorb? second = some both)
    (here : first.Follows rule) (there : second.Follows rule) : both.Follows rule := by
  cases absorbs_of_absorb? found with
  | reset | measure | rotation | qubitCoords | shiftCoords => trivial
  | interact | interactSwap | swap | iswap | sqrtProduct | feedback | product | parity =>
    exact List.forall_mem_append.mpr ⟨here, there⟩

/-- Combined exchanges are among those of both rounds. -/
theorem mem_combineSwaps? {first second pairs : List (Qubit × Qubit)}
    (combined : combineSwaps? first second = some pairs) {pair : Qubit × Qubit}
    (member : pair ∈ pairs) : pair ∈ first ∨ pair ∈ second := by
  rw [combineSwaps?] at combined
  split at combined
  · obtain rfl := Option.some.inj combined
    exact List.mem_append.mp (List.mem_filter.mp member).1
  · cases combined

/-- The Z-basis form of a layer follows a rule that the layer follows. -/
theorem everywhere_follows_zForm {layer : Layer} (flat : layer.isLoop = false)
    (here : layer.Follows rule) : Everywhere (Follows rule) layer.zForm := by
  fun_cases zForm layer with
  | case1 | case7 => exact ⟨(within_of_flat flat).mpr here, trivial⟩
  | case2 | case3 => exact everywhere_between (fun _ => trivial) _ _ trivial
  | case4 couplings | case5 couplings =>
    refine everywhere_between (fun _ => trivial) _ _ fun coupling member => ?_
    obtain ⟨original, listed, rfl⟩ := List.mem_map.mp member
    exact here original listed
  | case6 pairs =>
    refine everywhere_between (fun _ => trivial) _ _ fun pair member => ?_
    obtain ⟨original, listed, rfl⟩ := List.mem_map.mp member
    exact here original listed

/-- Following a rule survives every pass. -/
theorem stable_follows (rule : EntryRule) : Stable (Follows rule) where
  empty := trivial
  rotation _ := trivial
  absorb := follows_absorb?
  feedback rotations entries here := by
    intro entry member
    obtain ⟨original, listed, rfl⟩ := List.mem_map.mp member
    exact here original listed
  interactSwap here := here
  swapInteract here := by
    intro coupling member
    obtain ⟨original, listed, rfl⟩ := List.mem_map.mp member
    exact rule.symm (here original listed)
  swaps combined here there := by
    intro pair member
    rcases mem_combineSwaps? combined member with old | new
    · exact here pair old
    · exact there pair new
  zForm := everywhere_follows_zForm
  coords _ := trivial

end Layer

/-! ### Grouping -/

/-- A unit of a run is one of the units. -/
theorem mem_of_mem_runs {α : Type} {qubits : α → List Qubit} {units run : List α}
    (member : run ∈ runs qubits units) {unit : α} (listed : unit ∈ run) : unit ∈ units := by
  have whole := List.mem_flatten.mpr ⟨run, member, listed⟩
  rwa [flatten_runs] at whole

namespace Instruction

variable {rule : EntryRule} {instruction : Instruction} {layers : List Layer} {layer : Layer}

/-- Whether an instruction on pairs names two qubits as a pair, in either order. -/
def Pairs (instruction : Instruction) (first second : Qubit) : Prop :=
  (∃ gate, instruction.gate? = some gate ∧ gate.shape = .pair) ∧
    ((first, second) ∈ instruction.qubitPairs ∨ (second, first) ∈ instruction.qubitPairs)

/-- The layers that can stand for an instruction, with what is known of their entries. -/
inductive Makes (instruction : Instruction) : Layer → Prop where
  | parity (named : instruction.isParity = true) : Makes instruction (.parity [instruction])
  | shiftCoords : Makes instruction (.shiftCoords instruction.arguments)
  | qubitCoords (ids : List Qubit) :
      Makes instruction (.qubitCoords (.ofList (ids.map fun id => (id, instruction.arguments))))
  | product {factors : List Target} (measures : instruction.gate? = some .measureProduct)
      (cut : factors ∈ productsFrom [] false instruction.targets)
      (allowed : ∀ target ∈ factors, (target.isPauli || target == .combiner) = true) :
      Makes instruction (.product factors)
  | measure (targets : List Measurement) : Makes instruction (.measure targets)
  | reset (targets : QubitMap Basis) : Makes instruction (.reset targets)
  | rotation (rotations : RotationLayer) : Makes instruction (.rotation rotations)
  | interact {couplings : List Coupling}
      (each : ∀ coupling ∈ couplings, instruction.Pairs coupling.first.id coupling.second.id) :
      Makes instruction (.interact couplings)
  | interactSwap {couplings : List Coupling}
      (each : ∀ coupling ∈ couplings, instruction.Pairs coupling.first.id coupling.second.id) :
      Makes instruction (.interactSwap couplings)
  | swap {pairs : List (Qubit × Qubit)} (each : ∀ pair ∈ pairs, instruction.Pairs pair.1 pair.2) :
      Makes instruction (.swap pairs)
  | iswap {pairs : List (Qubit × Qubit)} (each : ∀ pair ∈ pairs, instruction.Pairs pair.1 pair.2) :
      Makes instruction (.iswap pairs)
  | sqrtProduct {pairs : List SqrtPair}
      (each : ∀ pair ∈ pairs, instruction.Pairs pair.first pair.second) :
      Makes instruction (.sqrtProduct pairs)
  | feedback {entry : Feedback} (classical : entry.control.isClassical = true) :
      Makes instruction (.feedback [entry])

/-- Measurements and resets make measurement and reset layers. -/
theorem makes_collapseLayers {measured reset : Option Basis}
    (read : instruction.collapseLayers measured reset = .ok layers) (member : layer ∈ layers) :
    instruction.Makes layer := by
  obtain ⟨-, targets, -, -, rfl⟩ := collapseLayers_eq_ok_iff.mp read
  obtain ⟨run, -, made⟩ := List.mem_flatMap.mp member
  rcases List.mem_append.mp made with measures | resets
  · obtain ⟨basis, -, rfl⟩ := Option.map_eq_some_iff.mp (Option.mem_toList.mp measures)
    exact .measure _
  · obtain ⟨basis, -, rfl⟩ := Option.map_eq_some_iff.mp (Option.mem_toList.mp resets)
    exact .reset _

/-- What is known of a part of an interaction. -/
def PairPart.Of (instruction : Instruction) : PairPart → Prop
  | .coupling pair => instruction.Pairs pair.first.id pair.second.id
  | .feedback entry => entry.control.isClassical = true

/-- Parts of an interaction make layers of couplings and of single feedback. -/
theorem makes_partLayers {held : List Coupling} {parts : List PairPart}
    (each : ∀ coupling ∈ held, instruction.Pairs coupling.first.id coupling.second.id)
    (parted : ∀ part ∈ parts, part.Of instruction) (member : layer ∈ partLayers held parts) :
    instruction.Makes layer := by
  have coupled : ∀ held : List Coupling,
      (∀ coupling ∈ held, instruction.Pairs coupling.first.id coupling.second.id) →
      ∀ layer ∈ couplingLayers held, instruction.Makes layer := by
    intro held each layer member
    obtain ⟨run, listed, rfl⟩ := List.mem_map.mp member
    refine .interact fun coupling inRun => ?_
    exact each coupling (List.mem_reverse.mp (mem_of_mem_runs listed inRun))
  fun_induction partLayers held parts with
  | case1 held => exact coupled held each layer member
  | case2 held coupling rest inductionHypothesis =>
    refine inductionHypothesis (fun other listed => ?_) (fun part listed => ?_) member
    · rcases List.mem_cons.mp listed with rfl | before
      · exact parted _ (.head _)
      · exact each other before
    · exact parted part (.tail _ listed)
  | case3 held entry rest inductionHypothesis =>
    rcases List.mem_append.mp member with before | after
    · exact coupled held each layer before
    · rcases List.mem_cons.mp after with rfl | later
      · exact .feedback (parted _ (.head _))
      · have rest := fun part listed => parted part (.tail _ listed)
        exact inductionHypothesis (List.forall_mem_nil _) rest later

/-- A part is read from a pair of the instruction. -/
theorem of_pairPart {first second : Basis} {pair : Target × Target} {part : PairPart}
    (applied : instruction.gate? = some (.controlled first second))
    (listed : pair ∈ instruction.targetPairs)
    (read : instruction.pairPart first second pair = .ok part) : part.Of instruction := by
  revert read
  fun_cases pairPart instruction first second pair with
  | case1 id other =>
    intro read
    obtain rfl := Except.ok.inj read
    exact ⟨⟨_, applied, rfl⟩, .inl (List.mem_filterMap.mpr ⟨_, listed, rfl⟩)⟩
  | case2 control id classical _ | case4 id control _ classical _ =>
    intro read
    obtain rfl := Except.ok.inj read
    exact (Bool.and_eq_true_iff.mp classical).1
  | case3 | case5 | case6 => nofun

/-- A product holds targets that it is cut from. -/
theorem mem_of_mem_productsFrom {progress targets product : List Target} {joined : Bool}
    (cut : product ∈ productsFrom progress joined targets) {target : Target}
    (member : target ∈ product) : target ∈ progress ∨ target ∈ targets := by
  fun_induction productsFrom progress joined targets with
  | case1 => cases cut
  | case2 =>
    obtain rfl := List.mem_singleton.mp cut
    exact .inl (List.mem_reverse.mp member)
  | case3 progress joined rest inductionHypothesis =>
    rcases inductionHypothesis cut with here | later
    · split at here
      · cases here
      · rcases List.mem_cons.mp here with rfl | old
        · exact .inr (.head _)
        · exact .inl old
    · exact .inr (.tail _ later)
  | case4 progress next rest _ inductionHypothesis =>
    rcases inductionHypothesis cut with here | later
    · split at here
      · cases here
      · rcases List.mem_cons.mp here with rfl | old
        · exact .inr (.head _)
        · exact .inl old
    · exact .inr (.tail _ later)
  -- With no product in progress the operator starts one; otherwise it also ends that one.
  | case5 progress joined next rest _ _ _ inductionHypothesis =>
    rcases inductionHypothesis cut with here | later
    · obtain rfl := List.mem_singleton.mp here
      exact .inr (.head _)
    · exact .inr (.tail _ later)
  | case6 progress joined next rest _ _ _ inductionHypothesis =>
    rcases List.mem_cons.mp cut with rfl | further
    · exact .inl (List.mem_reverse.mp member)
    · rcases inductionHypothesis further with here | later
      · obtain rfl := List.mem_singleton.mp here
        exact .inr (.head _)
      · exact .inr (.tail _ later)

/-- A product measurement makes layers of operators and combiners. -/
theorem makes_productLayers (measures : instruction.gate? = some .measureProduct)
    (read : instruction.productLayers = .ok layers) (member : layer ∈ layers) :
    instruction.Makes layer := by
  rw [productLayers] at read
  split at read
  · cases read
  · split at read
    · cases read
    · rename_i allowed
      obtain rfl := Except.ok.inj read
      obtain ⟨factors, cut, rfl⟩ := List.mem_map.mp member
      refine .product measures cut fun target listed => ?_
      rcases mem_of_mem_productsFrom cut listed with none | mine
      · cases none
      · have passed := List.find?_eq_none.mp allowed target mine
        rwa [Bool.not_eq_true', Bool.not_eq_false] at passed

/-- A pair of qubits, the smaller first, is a pair of the instruction. -/
theorem Pairs.smallerFirst {first second : Qubit} (paired : instruction.Pairs first second) :
    instruction.Pairs (StabilizerLayers.smallerFirst first second).1
      (StabilizerLayers.smallerFirst first second).2 := by
  rw [StabilizerLayers.smallerFirst]
  split
  · exact ⟨paired.1, paired.2.symm⟩
  · exact paired

/-- What the layers of a gate are. -/
theorem makes_gateLayers {gate : Gate} (applied : instruction.gate? = some gate)
    (read : instruction.gateLayers gate = .ok layers) (member : layer ∈ layers) :
    instruction.Makes layer := by
  have pairs : gate.shape = .pair → ∀ pair ∈ instruction.qubitPairs,
      instruction.Pairs pair.1 pair.2 := fun paired pair listed =>
    ⟨⟨gate, applied, paired⟩, .inl listed⟩
  cases gate with
  | detector | observableInclude =>
    obtain rfl := Except.ok.inj read
    obtain rfl := List.mem_singleton.mp member
    exact .parity (by simp [isParity, applied])
  | shiftCoords =>
    obtain rfl := Except.ok.inj read
    obtain rfl := List.mem_singleton.mp member
    exact .shiftCoords
  | qubitCoords =>
    obtain ⟨ids, -, rfl⟩ := exists_of_map_eq_ok read
    obtain rfl := List.mem_singleton.mp member
    exact .qubitCoords ids
  | identity | pauli _ | exchange _ | sqrtPauli _ _ | cycleXYZ | cycleZYX =>
    obtain ⟨ids, -, rfl⟩ := exists_of_map_eq_ok read
    obtain rfl := List.mem_singleton.mp member
    exact .rotation _
  | measureProduct => exact makes_productLayers applied read member
  | swap =>
    rw [plainPairs_map_eq_ok read] at member
    obtain ⟨run, listed, rfl⟩ := List.mem_map.mp member
    refine .swap fun pair made => ?_
    obtain ⟨original, inRun, rfl⟩ := List.mem_map.mp made
    exact (pairs rfl original (mem_of_mem_runs listed inRun)).smallerFirst
  | iswap =>
    rw [plainPairs_map_eq_ok read] at member
    obtain ⟨run, listed, rfl⟩ := List.mem_map.mp member
    refine .iswap fun pair made => ?_
    obtain ⟨original, inRun, rfl⟩ := List.mem_map.mp made
    exact (pairs rfl original (mem_of_mem_runs listed inRun)).smallerFirst
  | cxSwap | czSwap =>
    rw [plainPairs_map_eq_ok read] at member
    obtain ⟨run, listed, rfl⟩ := List.mem_map.mp member
    refine .interactSwap fun coupling inRun => ?_
    obtain ⟨original, inPairs, rfl⟩ := List.mem_map.mp (mem_of_mem_runs listed inRun)
    exact pairs rfl original inPairs
  -- The operands of this gate are exchanged, and a pair is one either way.
  | swapCx =>
    rw [plainPairs_map_eq_ok read] at member
    obtain ⟨run, listed, rfl⟩ := List.mem_map.mp member
    refine .interactSwap fun coupling inRun => ?_
    obtain ⟨original, inPairs, rfl⟩ := List.mem_map.mp (mem_of_mem_runs listed inRun)
    obtain ⟨shape, either⟩ := pairs rfl original inPairs
    exact ⟨shape, either.symm⟩
  | sqrtProduct axis dagger =>
    rw [plainPairs_map_eq_ok read] at member
    obtain ⟨run, listed, rfl⟩ := List.mem_map.mp member
    refine .sqrtProduct fun pair inRun => ?_
    obtain ⟨original, inPairs, rfl⟩ := List.mem_map.mp (mem_of_mem_runs listed inRun)
    exact pairs rfl original inPairs
  | measure _ | reset _ | measureReset _ => exact makes_collapseLayers read member
  | controlled first second =>
    obtain ⟨parts, named, rfl⟩ := exists_of_map_eq_ok read
    refine makes_partLayers (by simp) (fun part listed => ?_) member
    obtain ⟨pair, inTargets, single⟩ := exists_of_mem_mapM named listed
    exact of_pairPart applied inTargets single
  | tick | iswapDag | pauliError _ | depolarize1 | depolarize2 | pauliChannel1 | pauliChannel2
  | correlatedError | elseCorrelatedError => cases read

/-- What the layers of an instruction are. -/
theorem makes_of_mem_layers (read : instruction.layers = .ok layers) (member : layer ∈ layers) :
    instruction.Makes layer := by
  rw [Instruction.layers] at read
  cases applied : instruction.gate? with
  | none => simp [applied, refused] at read
  | some gate =>
    rw [applied] at read
    exact makes_gateLayers applied read member

/-- No instruction makes a loop. -/
theorem Makes.flat (made : instruction.Makes layer) : layer.isLoop = false := by
  cases made <;> rfl

/-- A property of all layers that an instruction can make holds everywhere in its
    layers. -/
theorem everywhere_layers {holds : Layer → Prop}
    (each : ∀ layer, instruction.Makes layer → holds layer)
    (read : instruction.layers = .ok layers) : Layer.Everywhere holds layers := by
  refine Layer.everywhere_iff.mpr fun layer member => ?_
  have made := makes_of_mem_layers read member
  exact (Layer.within_of_flat made.flat).mpr (each layer made)

/-- A layer of an instruction follows a rule that its pairs and the instruction
    follow. -/
theorem Makes.follows (made : instruction.Makes layer)
    (pairs : ∀ first second, instruction.Pairs first second → rule.pair first second)
    (parity : instruction.isParity = true → rule.parity instruction) : layer.Follows rule := by
  cases made with
  | parity named =>
    intro other member
    obtain rfl := List.mem_singleton.mp member
    exact parity named
  | product _ _ allowed => exact allowed
  | interact each | interactSwap each => exact fun coupling member => pairs _ _ (each _ member)
  | swap each | iswap each => exact fun pair member => pairs _ _ (each _ member)
  | sqrtProduct each => exact fun pair member => pairs _ _ (each _ member)
  | feedback classical =>
    intro other member
    obtain rfl := List.mem_singleton.mp member
    exact classical
  | shiftCoords | qubitCoords _ | measure _ | reset _ | rotation _ => trivial

/-- The qubits that a valid instruction names as a pair are distinct. -/
theorem Pairs.ne {first second : Qubit} (paired : instruction.Pairs first second)
    (valid : instruction.validate = .ok ()) : first ≠ second := by
  obtain ⟨⟨gate, applied, shape⟩, either⟩ := paired
  rcases either with listed | listed
  · simpa [pairQubits] using ne_of_mem_qubitPairs applied shape valid listed
  · simpa [pairQubits, eq_comm] using ne_of_mem_qubitPairs applied shape valid listed

end Instruction

namespace Schedule

variable {circuit : Circuit} {schedule : Schedule}

/-- A grouped circuit follows the rule of grouped circuits. -/
theorem follows_ofCircuit_grouped (grouped : Schedule.ofCircuit circuit = .ok schedule) :
    Layer.Everywhere (Layer.Follows .grouped) schedule :=
  everywhere_ofCircuit (Layer.stable_follows _)
    (fun _ _ _ => Instruction.everywhere_layers fun _ made =>
      made.follows (fun _ _ _ => trivial) id) grouped

/-- A grouped circuit of valid instructions follows the rule of valid circuits. -/
theorem follows_ofCircuit_valid (valid : circuit.Valid)
    (grouped : Schedule.ofCircuit circuit = .ok schedule) :
    Layer.Everywhere (Layer.Follows .valid) schedule :=
  everywhere_ofCircuit (Layer.stable_follows _)
    (fun instruction member _ => Instruction.everywhere_layers fun _ made =>
      made.follows (fun _ _ paired => paired.ne (valid instruction member))
        fun parity => ⟨parity, valid instruction member⟩) grouped

end Schedule

/-! ### Writing -/

namespace Instruction

/-- A gate on single qubits takes any plain qubits. -/
theorem validate_onQubits_single {gate : Gate} (shape : gate.shape = .single) (ids : List Qubit) :
    (onQubits gate ids).validate = .ok () := by
  simp only [validate, gate?_onQubits, validateTargets, shape, requireAll_eq_ok]
  intro target member
  obtain ⟨id, -, rfl⟩ := List.mem_map.mp member
  rfl

/-- A gate on pairs takes two distinct plain qubits. -/
theorem validate_onQubits_pair {gate : Gate} (shape : gate.shape = .pair) {first second : Qubit}
    (distinct : first ≠ second) : (onQubits gate [first, second]).validate = .ok () := by
  simp [validate, validateTargets, shape, onQubits, on, gate?, Operator.gate?, consecutivePairs,
    validatePairs, validatePair, acceptsPaired, Target.plain, Target.isQubit, Target.isClassical,
    Target.qubit?, distinct]

/-- Feedback with a classical control is valid. -/
theorem validate_feedbackInstruction {entry : Feedback}
    (classical : entry.control.isClassical = true) :
    (Layer.feedbackInstruction entry).validate = .ok () := by
  obtain ⟨control, id, basis⟩ := entry
  cases control with
  | record _ | sweep _ =>
    simp [validate, validateTargets, Layer.feedbackInstruction, on, gate?, Operator.gate?,
      Gate.shape, Gate.controlledBases?, consecutivePairs, validatePairs, validatePair,
      acceptsPaired, Target.plain, Target.isQubit, Target.isClassical, Target.qubit?]
  | qubit _ _ | pauli _ _ _ | combiner => cases classical

end Instruction

namespace Coupling

/-- The operands of a coupling in writing order are those of the coupling. -/
theorem pair_canonical (rule : EntryRule) {coupling : Coupling}
    (asked : rule.pair coupling.first.id coupling.second.id) :
    rule.pair coupling.canonical.first.id coupling.canonical.second.id := by
  rw [canonical]
  split
  · exact rule.symm asked
  · exact asked

/-- Couplings in writing order follow a rule that all couplings follow. -/
theorem pair_of_mem_sorted (rule : EntryRule) {couplings : List Coupling}
    (each : ∀ coupling ∈ couplings, rule.pair coupling.first.id coupling.second.id)
    {coupling : Coupling} (member : coupling ∈ sorted couplings) :
    rule.pair coupling.first.id coupling.second.id := by
  obtain ⟨original, listed, rfl⟩ := List.mem_map.mp ((sortByKey_perm key _).mem_iff.mp member)
  exact pair_canonical rule (each original listed)

/-- The gate that couples and exchanges is one on pairs. -/
theorem shape_swapGate? {coupling : Coupling} {gate : Gate}
    (performs : coupling.swapGate? = some gate) : gate.shape = .pair := by
  rw [swapGate?] at performs
  split at performs
  · obtain rfl := Option.some.inj performs
    rfl
  · obtain rfl := Option.some.inj performs
    rfl
  · cases performs

/-- Instructions of couplings with exchanges: a gate that does both, or the coupling
    or the exchange where there is none. -/
theorem cases_of_mem_swapInstructions {couplings : List Coupling} {instruction : Instruction}
    (member : instruction ∈ swapInstructions couplings) :
    ∃ coupling ∈ sorted couplings,
      (∃ gate, coupling.swapGate? = some gate ∧ instruction = coupling.instruction gate) ∨
      (coupling.swapGate? = none ∧
        (instruction = coupling.instruction coupling.gate ∨
          instruction = .onQubits .swap (pairQubits coupling.pair))) := by
  rw [swapInstructions, List.append_assoc] at member
  rcases List.mem_append.mp member with own | generic
  · obtain ⟨coupling, listed, made⟩ := List.mem_filterMap.mp own
    obtain ⟨gate, performs, rfl⟩ := Option.map_eq_some_iff.mp made
    exact ⟨coupling, listed, .inl ⟨gate, performs, rfl⟩⟩
  · rcases List.mem_append.mp generic with coupled | exchanged
    · obtain ⟨coupling, listed, rfl⟩ := List.mem_map.mp coupled
      obtain ⟨inOrder, none⟩ := List.mem_filter.mp listed
      exact ⟨coupling, inOrder, .inr ⟨by simpa using none, .inl rfl⟩⟩
    · obtain ⟨coupling, listed, rfl⟩ := List.mem_map.mp exchanged
      obtain ⟨inOrder, none⟩ := List.mem_filter.mp listed
      exact ⟨coupling, inOrder, .inr ⟨by simpa using none, .inr rfl⟩⟩

/-- Couplings that all have a gate of their own for the exchange are written with it. -/
theorem swapInstructions_eq {couplings : List Coupling}
    (own : ∀ coupling ∈ sorted couplings, coupling.swapGate?.isSome = true) :
    swapInstructions couplings =
      (sorted couplings).map fun coupling =>
        coupling.instruction (coupling.swapGate?.getD .swap) := by
  have none : (sorted couplings).filter (fun coupling => coupling.swapGate?.isNone) = [] := by
    refine List.filter_eq_nil_iff.mpr fun coupling member => ?_
    simpa [Option.isSome_iff_ne_none] using own coupling member
  simp only [swapInstructions, none, List.map_nil, List.append_nil]
  refine List.filterMap_eq_map_iff_forall_eq_some.mpr fun coupling member => ?_
  obtain ⟨gate, performs⟩ := Option.isSome_iff_exists.mp (own coupling member)
  simp [performs]

end Coupling

/-- An instruction of rotations has the gate of one of them. -/
theorem RotationLayer.exists_of_mem_instructions {rotations : RotationLayer}
    {instruction : Instruction} (member : instruction ∈ rotations.instructions) :
    ∃ (rotation : Rotation) (gate : Gate) (ids : List Qubit),
      rotation.gate? = some gate ∧ instruction = .onQubits gate ids := by
  obtain ⟨rotation, -, made⟩ := List.mem_filterMap.mp member
  obtain ⟨gate, performs, made⟩ := Option.bind_eq_some_iff.mp made
  split at made
  · cases made
  · exact ⟨rotation, gate, _, performs, (Option.some.inj made).symm⟩

/-- An instruction of resets has the axis of one of them. -/
theorem Layer.exists_of_mem_resetInstructions {targets : QubitMap Basis}
    {instruction : Instruction} (member : instruction ∈ resetInstructions targets) :
    ∃ basis ids, basis ∈ targets.values ∧ instruction = .onQubits (.reset basis) ids := by
  obtain ⟨basis, -, made⟩ := List.mem_filterMap.mp member
  split at made
  · cases made
  · rename_i ids some
    refine ⟨basis, targets.keysWhere (· == basis), ?_, (Option.some.inj made).symm⟩
    obtain ⟨id, named⟩ := List.exists_mem_of_ne_nil _ some
    obtain ⟨entry, kept, -⟩ := List.mem_map.mp named
    obtain ⟨listed, same⟩ := List.mem_filter.mp kept
    obtain rfl : entry.2 = basis := by simpa using same
    exact List.mem_map_of_mem listed

/-- A gate that performs a rotation acts on single qubits. -/
theorem Rotation.shape_gate? {rotation : Rotation} {gate : Gate}
    (performs : rotation.gate? = some gate) : gate.shape = .single := by
  cases rotation with
  | identity => cases performs
  | exchange _ | cycleXYZ | cycleZYX =>
    obtain rfl := Option.some.inj performs
    rfl

namespace Layer

open Instruction (validate_onQubits_single validate_onQubits_pair)

/-- The two qubits of a pair stay distinct with the smaller one first. -/
theorem smallerFirst_ne {first second : Qubit} (distinct : first ≠ second) :
    (smallerFirst first second).1 ≠ (smallerFirst first second).2 := by
  rw [smallerFirst]
  split
  · exact distinct.symm
  · exact distinct

/-- Whether the detectors and observables of a layer are valid. -/
def ParitiesValid : Layer → Prop
  | parity instructions => ∀ instruction ∈ instructions, instruction.validate = .ok ()
  | _ => True

/-- A well-formed layer with valid detectors and observables follows the rule of valid
    circuits: entries that name no qubit twice pair no qubit with itself. -/
theorem WellFormed.follows {layer : Layer} (formed : layer.WellFormed)
    (valid : layer.ParitiesValid) : layer.Follows .valid := by
  cases layer with
  | interact couplings | interactSwap couplings =>
    intro coupling member
    have once := (List.nodup_flatMap.mp formed).1 coupling member
    simpa [Coupling.qubits, EntryRule.valid] using once
  | swap pairs | iswap pairs =>
    intro pair member
    have once := (List.nodup_flatMap.mp formed).1 pair member
    simpa [pairQubits, EntryRule.valid] using once
  | sqrtProduct pairs =>
    intro pair member
    have once := (List.nodup_flatMap.mp formed).1 pair member
    simpa [SqrtPair.qubits, EntryRule.valid] using once
  | feedback entries => exact formed
  | product targets =>
    intro target member
    obtain ⟨factors, listed, inside⟩ : ∃ factors ∈ products targets, target ∈ factors := by
      rw [← List.mem_flatten, products, List.flatten_splitBy]
      exact member
    exact isPauli_or_combiner (formed factors listed) inside
  | parity instructions =>
    exact fun instruction member => ⟨formed instruction member, valid instruction member⟩
  | reset _ | measure _ | rotation _ | qubitCoords _ | shiftCoords _ | empty | loop _ _ => trivial

/-- A layer that follows the rule of valid circuits has valid instructions. -/
theorem writable_of_follows {layer : Layer} (follows : layer.Follows .valid) : layer.Writable := by
  intro instruction member
  cases layer with
  | reset targets =>
    obtain ⟨basis, ids, -, rfl⟩ := exists_of_mem_resetInstructions member
    exact validate_onQubits_single rfl ids
  | measure targets =>
    obtain ⟨target, -, rfl⟩ := List.mem_map.mp member
    rfl
  | interact couplings =>
    obtain ⟨coupling, listed, rfl⟩ := List.mem_map.mp member
    exact validate_onQubits_pair rfl (Coupling.pair_of_mem_sorted .valid follows listed)
  -- Where no single gate does both, a coupling and an exchange are written.
  | interactSwap couplings =>
    obtain ⟨coupling, listed, made⟩ := Coupling.cases_of_mem_swapInstructions member
    have distinct := Coupling.pair_of_mem_sorted .valid follows listed
    rcases made with ⟨gate, performs, rfl⟩ | ⟨-, rfl | rfl⟩
    · exact validate_onQubits_pair (Coupling.shape_swapGate? performs) distinct
    · exact validate_onQubits_pair rfl distinct
    · exact validate_onQubits_pair rfl (smallerFirst_ne distinct)
  | swap pairs | iswap pairs =>
    obtain ⟨pair, listed, rfl⟩ := List.mem_map.mp member
    exact validate_onQubits_pair rfl (follows pair ((sortByKey_perm pairKey _).mem_iff.mp listed))
  | sqrtProduct pairs =>
    obtain ⟨pair, listed, rfl⟩ := List.mem_map.mp member
    have distinct := follows pair ((sortByKey_perm SqrtPair.key _).mem_iff.mp listed)
    exact validate_onQubits_pair rfl (smallerFirst_ne distinct)
  | feedback entries =>
    obtain ⟨entry, listed, rfl⟩ := List.mem_map.mp member
    exact Instruction.validate_feedbackInstruction (follows entry listed)
  | rotation rotations =>
    obtain ⟨turn, gate, ids, performs, rfl⟩ := RotationLayer.exists_of_mem_instructions member
    exact validate_onQubits_single (Rotation.shape_gate? performs) ids
  | product targets =>
    obtain rfl := List.mem_singleton.mp member
    exact Instruction.requireAll_eq_ok.mpr follows
  | parity instructions => exact (follows instruction member).2
  | qubitCoords coordinates =>
    obtain ⟨entry, -, rfl⟩ := List.mem_map.mp member
    rfl
  | shiftCoords shift =>
    obtain rfl := List.mem_singleton.mp member
    rfl
  | empty | loop _ _ => cases member

/-- A layer that follows a rule which asks for detectors and observables holds them. -/
theorem holdsParities_of_follows {rule : EntryRule}
    (asked : ∀ instruction, rule.parity instruction → instruction.isParity = true) {layer : Layer}
    (follows : layer.Follows rule) : layer.HoldsParities := by
  cases layer with
  | parity instructions => exact fun instruction member => asked instruction (follows _ member)
  | reset _ | measure _ | interact _ | interactSwap _ | swap _ | iswap _ | sqrtProduct _
  | feedback _ | rotation _ | product _ | qubitCoords _ | shiftCoords _ | empty | loop _ _ =>
    trivial

end Layer

end StabilizerLayers
