import StabilizerLayers.Proofs.Schedule.Entries
import StabilizerLayers.Proofs.Schedule.FlippedLayers

/-!
# Schedules of flipped circuits

To exchange X and Z in a circuit is to conjugate every qubit by the rotation that
exchanges them. Grouping shows that the table of counterparts does this: a flipped
circuit is grouped into the same layers with every axis flipped and every rotation
conjugated.

Gates become layers by a table of their own, so this is a fact about each gate. Only
where an exchange is fused with a controlled X does the counterpart name its operands in
the other order. Where a run ends depends on the qubits alone, and these stay. So
grouping takes the same steps for both circuits, and what holds of the layers of each
instruction holds of the schedules.
-/

namespace StabilizerLayers

/-! ### Runs and parts -/

/-- The layers of the runs of changed units are those of the runs of the units, flipped
    one by one. -/
theorem forall₂_runs {α : Type} {qubits : α → List Qubit} (change : α → α)
    (same : ∀ unit id, id ∈ qubits (change unit) ↔ id ∈ qubits unit) {build : List α → Layer}
    (each : ∀ run, (build run).FlipsTo (build (run.map change))) (units : List α) :
    List.Forall₂ Layer.FlipsTo ((runs qubits units).map build)
      ((runs qubits (units.map change)).map build) := by
  rw [runs_map change same, List.map_map, List.forall₂_map_left_iff,
    List.forall₂_map_right_iff, List.forall₂_same]
  exact fun run _ => each run

/-! ### Instructions -/

/-- The counterpart of a gate rotates by the conjugated rotation. -/
theorem Gate.rotation?_flipped? {gate other : Gate} {rotation : Rotation}
    (flips : gate.flipped? = some other) (performs : gate.rotation? = some rotation) :
    other.rotation? = some rotation.flipped := by
  cases gate with
  | identity | pauli _ | cycleXYZ | cycleZYX =>
    cases flips
    cases performs
    rfl
  | exchange axis | sqrtPauli axis _ =>
    cases flips
    cases performs
    cases axis <;> rfl
  | _ => cases performs

namespace Instruction

variable {instruction other : Instruction} {layers : List Layer}

/-- The part with its axes flipped. -/
def PairPart.flipped : PairPart → PairPart
  | .coupling pair => .coupling pair.flipped
  | .feedback entry => .feedback entry.flipped

/-- A target pair that turns into one of another gate is read as the flipped part. -/
theorem pairPart_flipped {first second one two : Basis} {pair : Target × Target}
    {part : PairPart} (flips : Gate.flippedPair first second pair = .controlled one two)
    (read : instruction.pairPart first second pair = .ok part) :
    other.pairPart one two pair = .ok part.flipped := by
  revert read
  fun_cases pairPart instruction first second pair with
  | case1 id second =>
    intro read
    obtain rfl := Except.ok.inj read
    obtain ⟨rfl, rfl⟩ := Gate.controlled.inj flips
    rfl
  | case2 control id classical _ =>
    -- A classical bit has no axis: that of the control stays Z.
    intro read
    obtain rfl := Except.ok.inj read
    obtain ⟨bit, alongZ⟩ := Bool.and_eq_true_iff.mp classical
    cases control with
    | record _ | sweep _ =>
      obtain ⟨rfl, rfl⟩ := Gate.controlled.inj flips
      simp [pairPart, Target.isClassical, alongZ, PairPart.flipped, Feedback.flipped]
    | qubit _ _ | pauli _ _ _ | combiner => cases bit
  | case4 id control _ classical _ =>
    intro read
    obtain rfl := Except.ok.inj read
    obtain ⟨bit, alongZ⟩ := Bool.and_eq_true_iff.mp classical
    cases control with
    | record _ | sweep _ =>
      obtain ⟨rfl, rfl⟩ := Gate.controlled.inj flips
      simp [pairPart, Target.isClassical, alongZ, PairPart.flipped, Feedback.flipped]
    | qubit _ _ | pauli _ _ _ | combiner => cases bit
  | case3 | case5 | case6 =>
    intro read
    injection read

/-- Flipped couplings are held in flipped layers. -/
theorem forall₂_couplingLayers (held : List Coupling) :
    List.Forall₂ Layer.FlipsTo (couplingLayers held)
      (couplingLayers (held.map Coupling.flipped)) := by
  rw [couplingLayers, couplingLayers, ← List.map_reverse]
  exact forall₂_runs Coupling.flipped (fun _ _ => Iff.rfl) .interact held.reverse

/-- Flipped parts make flipped layers. -/
theorem forall₂_partLayers (held : List Coupling) (parts : List PairPart) :
    List.Forall₂ Layer.FlipsTo (partLayers held parts)
      (partLayers (held.map Coupling.flipped) (parts.map PairPart.flipped)) := by
  fun_induction partLayers held parts with
  | case1 held => exact forall₂_couplingLayers held
  | case2 held coupling rest inductionHypothesis => exact inductionHypothesis
  | case3 held entry rest inductionHypothesis =>
    exact List.rel_append (forall₂_couplingLayers held)
      (.cons (.feedback [entry]) inductionHypothesis)

/-- The layers of a controlled Pauli whose pairs all turn into those of another. -/
theorem interactionLayers_flipped {first second one two : Basis}
    (flips : ∀ pair ∈ instruction.targetPairs,
      Gate.flippedPair first second pair = .controlled one two)
    (read : instruction.interactionLayers first second = .ok layers) :
    ∃ others, interactionLayers { instruction with operator := .known (.controlled one two) }
        one two = .ok others ∧ List.Forall₂ Layer.FlipsTo layers others := by
  obtain ⟨parts, found, rfl⟩ := exists_of_map_eq_ok read
  have turned : instruction.targetPairs.mapM
      (pairPart { instruction with operator := .known (.controlled one two) } one two) =
        .ok (parts.map PairPart.flipped) := by
    refine mapM_of_forall₂ (List.forall₂_map_right_iff.mpr ?_)
    have each := (List.forall₂_and_left _ _).mpr ⟨flips, forall₂_of_mapM found⟩
    exact each.imp fun _ _ both => pairPart_flipped both.1 both.2
  exact ⟨_, congrArg (Except.map (partLayers [])) turned, forall₂_partLayers [] parts⟩

/-- The instruction with another gate and the axes of its operators flipped. -/
def turned (instruction : Instruction) (gate : Gate) : Instruction :=
  { instruction with operator := .known gate, targets := instruction.targets.map Target.flipped }

variable {gate : Gate}

/-- Plain qubits stay. -/
theorem plainQubits_turned {ids : List Qubit} (read : instruction.plainQubits = .ok ids) :
    (instruction.turned gate).plainQubits = .ok ids := by
  rw [plainQubits_eq_ok_iff] at read ⊢
  rw [turned, read, List.map_map]
  rfl

/-- The layers of pairs that stay. -/
theorem plainPairs_turned {build change : List (Qubit × Qubit) → List Layer}
    (each : ∀ pairs, List.Forall₂ Layer.FlipsTo (build pairs) (change pairs))
    (read : instruction.plainPairs.map build = .ok layers) :
    ∃ others, (instruction.turned gate).plainPairs.map change = .ok others ∧
      List.Forall₂ Layer.FlipsTo layers others := by
  obtain ⟨pairs, plain, rfl⟩ := exists_of_map_eq_ok read
  obtain ⟨ids, named, rfl⟩ := exists_of_map_eq_ok plain
  refine ⟨_, ?_, each (consecutivePairs ids)⟩
  rw [plainPairs, plainQubits_turned named]
  rfl

/-- The layers of a rotation of single qubits. -/
theorem rotationLayers_turned {rotation : Rotation}
    (read : (instruction.plainQubits.map fun ids =>
      [Layer.rotation (.ofList (ids.map fun id => (id, rotation)))]) = .ok layers) :
    ∃ others, ((instruction.turned gate).plainQubits.map fun ids =>
      [Layer.rotation (.ofList (ids.map fun id => (id, rotation.flipped)))]) = .ok others ∧
      List.Forall₂ Layer.FlipsTo layers others := by
  obtain ⟨ids, plain, rfl⟩ := exists_of_map_eq_ok read
  have flips := Layer.FlipsTo.rotation (.ofList (ids.map fun id => (id, rotation)))
  rw [RotationLayer.flipped_ofList, List.map_map] at flips
  rw [plainQubits_turned plain]
  exact ⟨_, rfl, .cons flips .nil⟩

/-- The layers of a measurement or reset along the flipped axes. -/
theorem collapseLayers_turned {measured reset : Option Basis}
    (read : instruction.collapseLayers measured reset = .ok layers) :
    ∃ others, (instruction.turned gate).collapseLayers (measured.map Basis.flipped)
        (reset.map Basis.flipped) = .ok others ∧ List.Forall₂ Layer.FlipsTo layers others := by
  obtain ⟨noiseless, targets, named, plain, rfl⟩ := collapseLayers_eq_ok_iff.mp read
  refine ⟨_, collapseLayers_eq_ok_iff.mpr ⟨noiseless, targets, ?_, by simpa using plain, rfl⟩, ?_⟩
  · rw [turned, named, List.map_map]
    rfl
  · refine List.rel_flatMap (List.forall₂_same.mpr fun _ _ => rfl) fun run others same => ?_
    subst same
    refine List.rel_append ?_ ?_
    · cases measured with
      | none => exact .nil
      | some basis =>
        have flips := Layer.FlipsTo.measure (run.map fun target => ⟨target.1, basis, target.2⟩)
        rw [List.map_map] at flips
        exact .cons flips .nil
    · cases reset with
      | none => exact .nil
      | some basis =>
        have flips := Layer.FlipsTo.reset (.ofList (run.map fun target => (target.1, basis)))
        rw [QubitMap.mapValues_ofList, List.map_map] at flips
        exact .cons flips .nil

/-- The layers of couplings with exchanges whose counterparts name the operands in the
    other order. -/
theorem forall₂_couplingSwaps {couple change : Qubit × Qubit → Coupling}
    (each : ∀ pair, change pair = (couple pair).flipped.reversed) (pairs : List (Qubit × Qubit)) :
    List.Forall₂ Layer.FlipsTo ((runs Coupling.qubits (pairs.map couple)).map .interactSwap)
      ((runs Coupling.qubits (pairs.map change)).map .interactSwap) := by
  have turned : pairs.map change =
      (pairs.map couple).map fun coupling => coupling.flipped.reversed := by
    rw [List.map_map]
    exact List.map_congr_left fun pair _ => each pair
  rw [turned]
  refine forall₂_runs _ (fun _ _ => Coupling.FlipsTo.mem_qubits (.inr rfl)) (fun run => ?_) _
  exact .interactSwap (List.forall₂_map_right_iff.mpr (List.forall₂_same.mpr fun _ _ => .inr rfl))

/-- The layers of a gate that rotates single qubits. -/
theorem gateLayers_of_rotation? {gate : Gate} {rotation : Rotation}
    (performs : gate.rotation? = some rotation) :
    instruction.gateLayers gate = instruction.plainQubits.map fun ids =>
      [.rotation (.ofList (ids.map fun id => (id, rotation)))] := by
  cases gate with
  | identity | pauli _ | exchange _ | sqrtPauli _ _ | cycleXYZ | cycleZYX =>
    cases performs
    rfl
  | _ => cases performs

/-- The layers of the counterpart of a gate are flipped. -/
theorem gateLayers_turned {counterpart : Gate} (known : instruction.operator = .known gate)
    (single : gate.controlledBases? = none) (found : gate.flipped? = some counterpart)
    (read : instruction.gateLayers gate = .ok layers) :
    ∃ others, (instruction.turned counterpart).gateLayers counterpart = .ok others ∧
      List.Forall₂ Layer.FlipsTo layers others := by
  -- Gates that rotate are treated alike, whichever rotation they perform.
  cases turns : gate.rotation? with
  | some rotation =>
    rw [gateLayers_of_rotation? turns] at read
    rw [gateLayers_of_rotation? (Gate.rotation?_flipped? found turns)]
    exact rotationLayers_turned read
  | none =>
    cases gate with
    | detector | observableInclude =>
      cases found
      obtain rfl := Except.ok.inj read
      refine ⟨_, rfl, .cons ?_ .nil⟩
      rw [turned, ← known]
      exact .parity [instruction]
    | shiftCoords =>
      cases found
      obtain rfl := Except.ok.inj read
      exact ⟨_, rfl, .cons (.shiftCoords _) .nil⟩
    | qubitCoords =>
      cases found
      obtain ⟨ids, plain, rfl⟩ := exists_of_map_eq_ok read
      refine ⟨_, ?_, .cons (.qubitCoords _) .nil⟩
      rw [gateLayers, plainQubits_turned plain]
      rfl
    | swap =>
      cases found
      refine plainPairs_turned (fun pairs => List.forall₂_same.mpr fun layer member => ?_) read
      obtain ⟨run, -, rfl⟩ := List.mem_map.mp member
      exact .swap _
    | cxSwap | swapCx =>
      cases found
      exact plainPairs_turned (forall₂_couplingSwaps fun _ => rfl) read
    | sqrtProduct axis dagger =>
      cases found
      refine plainPairs_turned (fun pairs => ?_) read
      have flips := forall₂_runs SqrtPair.flipped SqrtPair.mem_qubits_flipped .sqrtProduct
        (pairs.map fun pair => ⟨pair.1, pair.2, axis, dagger⟩)
      rw [List.map_map] at flips
      exact flips
    | measure axis =>
      cases found
      exact collapseLayers_turned read
    | reset axis =>
      cases found
      exact collapseLayers_turned read
    | measureReset axis =>
      cases found
      exact collapseLayers_turned read
    | controlled _ _ => cases single
    | identity | pauli _ | exchange _ | sqrtPauli _ _ | cycleXYZ | cycleZYX => cases turns
    | measureProduct | iswap | iswapDag | czSwap | pauliChannel1 | pauliChannel2
    | correlatedError | elseCorrelatedError => cases found
    | tick | pauliError _ | depolarize1 | depolarize2 => cases read

/-- The layers of what an instruction turns into are flipped. -/
theorem layers_flipped (flips : instruction.flipped = .ok other)
    (read : instruction.layers = .ok layers) :
    ∃ others, other.layers = .ok others ∧ List.Forall₂ Layer.FlipsTo layers others := by
  rcases flipped_cases flips with
    ⟨first, second, gate, known, agree, rfl⟩ | ⟨gate, counterpart, known, single, found, rfl⟩
  · obtain ⟨one, two, rfl, -⟩ := Gate.flippedControlled_symm agree
    rw [Instruction.layers, gate?, known] at read
    exact interactionLayers_flipped (Gate.flippedControlled_eq_ok_iff.mp agree).2 read
  · rw [Instruction.layers, gate?, known] at read
    exact gateLayers_turned known single found read

/-- Only a tick turns into a tick. -/
theorem applies_tick_flipped (flips : instruction.flipped = .ok other) :
    other.applies .tick = instruction.applies .tick := by
  obtain ⟨operator, targets, arguments⟩ := instruction
  rcases flipped_cases flips with
    ⟨first, second, gate, rfl, agree, rfl⟩ | ⟨gate, flippedGate, rfl, -, found, rfl⟩
  · obtain ⟨one, two, rfl, -⟩ := Gate.flippedControlled_symm agree
    rfl
  · cases gate <;> cases found <;> rfl

end Instruction

/-! ### Grouping -/

namespace Grouping

variable {grouping other next : Grouping}

/-- Whether the layers grouped so far are others flipped. -/
structure FlipsTo (grouping other : Grouping) : Prop where
  closed : List.Forall₂ Layer.FlipsTo grouping.closed other.closed
  current : List.Forall₂ Layer.FlipsTo grouping.current other.current

/-- A flipped grouping gives a flipped schedule. -/
theorem FlipsTo.schedule (flips : grouping.FlipsTo other) :
    List.Forall₂ Layer.FlipsTo grouping.schedule other.schedule :=
  List.rel_reverse (List.rel_append flips.current flips.closed)

/-- Adding a flipped layer. -/
theorem FlipsTo.push (flips : grouping.FlipsTo other) {layer flipped : Layer}
    (turns : layer.FlipsTo flipped) : (grouping.push layer).FlipsTo (other.push flipped) := by
  obtain ⟨closed, current⟩ := grouping
  obtain ⟨otherClosed, otherCurrent⟩ := other
  obtain ⟨closedFlips, currentFlips⟩ := flips
  cases currentFlips with
  | nil => exact ⟨closedFlips, .cons turns .nil⟩
  | cons latest earlier =>
    have merged := latest.absorb? turns
    simp only [Grouping.push]
    generalize Layer.absorb? _ _ = mine at merged
    generalize Layer.absorb? _ _ = theirs at merged
    cases merged with
    | some both => exact ⟨closedFlips, .cons both earlier⟩
    | none => exact ⟨closedFlips, .cons turns (.cons latest earlier)⟩

/-- Adding flipped layers. -/
theorem FlipsTo.pushAll (flips : grouping.FlipsTo other) {layers others : List Layer}
    (turns : List.Forall₂ Layer.FlipsTo layers others) :
    (grouping.pushAll layers).FlipsTo (other.pushAll others) := by
  induction turns generalizing grouping other with
  | nil => exact flips
  | cons here _ inductionHypothesis => exact inductionHypothesis (flips.push here)

/-- Closing the open slot. -/
theorem FlipsTo.tick (flips : grouping.FlipsTo other) : grouping.tick.FlipsTo other.tick := by
  obtain ⟨closed, current⟩ := grouping
  obtain ⟨otherClosed, otherCurrent⟩ := other
  obtain ⟨closedFlips, currentFlips⟩ := flips
  cases currentFlips with
  | nil => exact ⟨.cons .empty closedFlips, .nil⟩
  | cons latest earlier => exact ⟨List.rel_append (.cons latest earlier) closedFlips, .nil⟩

/-- Adding a flipped loop. -/
theorem FlipsTo.pushLoop (flips : grouping.FlipsTo other) (repetitions : UInt64)
    {body others : Schedule} (turns : List.Forall₂ Layer.FlipsTo body others) :
    (grouping.pushLoop repetitions body).FlipsTo (other.pushLoop repetitions others) :=
  ⟨.cons (.loop repetitions turns) (List.rel_append flips.current flips.closed), .nil⟩

/-- Adding what an instruction turns into. -/
theorem FlipsTo.instruction (flips : grouping.FlipsTo other) {single flipped : Instruction}
    (turns : single.flipped = .ok flipped) (read : grouping.instruction single = .ok next) :
    ∃ after, other.instruction flipped = .ok after ∧ next.FlipsTo after := by
  rw [Grouping.instruction] at read
  rw [Grouping.instruction, Instruction.applies_tick_flipped turns]
  split at read
  · rename_i ticks
    obtain rfl := Except.ok.inj read
    exact ⟨_, if_pos ticks, flips.tick⟩
  · rename_i works
    obtain ⟨layers, made, rfl⟩ := exists_of_map_eq_ok read
    obtain ⟨others, alsoMade, each⟩ := Instruction.layers_flipped turns made
    rw [if_neg works, alsoMade]
    exact ⟨_, rfl, flips.pushAll each⟩

mutual

/-- Adding what an operation turns into. -/
theorem FlipsTo.operation {grouping other next : Grouping} (flips : grouping.FlipsTo other)
    {operation flipped : Operation} (turns : operation.FlipsTo flipped)
    (read : grouping.operation operation = .ok next) :
    ∃ after, other.operation flipped = .ok after ∧ next.FlipsTo after := by
  cases operation with
  | single instruction =>
    cases flipped with
    | single turned => exact flips.instruction turns.1 read
    | block _ _ => exact turns.elim
  | block repetitions body =>
    cases flipped with
    | single _ => exact turns.elim
    | block others turnedBody =>
      obtain ⟨rfl, inside⟩ := turns
      rw [Grouping.operation] at read ⊢
      split at read
      · cases read
      · rename_i inner grouped
        obtain rfl := Except.ok.inj read
        have nothing : start.FlipsTo start := ⟨.nil, .nil⟩
        obtain ⟨after, alsoGrouped, within⟩ := nothing.operations inside grouped
        rw [alsoGrouped]
        exact ⟨_, rfl, flips.pushLoop repetitions within.schedule⟩

/-- Adding what operations turn into. -/
theorem FlipsTo.operations {grouping other next : Grouping} (flips : grouping.FlipsTo other)
    {circuit flipped : List Operation} (turns : Operation.AllFlipTo circuit flipped)
    (read : grouping.operations circuit = .ok next) :
    ∃ after, other.operations flipped = .ok after ∧ next.FlipsTo after := by
  cases circuit with
  | nil =>
    cases flipped with
    | nil =>
      obtain rfl := Except.ok.inj read
      exact ⟨other, rfl, flips⟩
    | cons _ _ => exact turns.elim
  | cons first rest =>
    cases flipped with
    | nil => exact turns.elim
    | cons second later =>
      rw [Grouping.operations] at read ⊢
      split at read
      · cases read
      · rename_i middle here
        obtain ⟨between, alsoHere, flipsBetween⟩ := flips.operation turns.1 here
        rw [alsoHere]
        exact flipsBetween.operations turns.2 read

end

end Grouping

/-- A flipped circuit is grouped into the flipped schedule: if a circuit has a schedule
    and a counterpart, then the counterpart has a schedule as well, and this is the first
    one layer by layer, in bodies too, with every axis flipped and every rotation between
    two exchanges of X and Z. -/
theorem Schedule.ofCircuit_flipped {circuit flipped : Circuit} {schedule : Schedule}
    (grouped : ofCircuit circuit = .ok schedule) (flips : circuit.flipped = .ok flipped) :
    ∃ others, ofCircuit flipped = .ok others ∧ List.Forall₂ Layer.FlipsTo schedule others := by
  obtain ⟨grouping, read, rfl⟩ := exists_of_map_eq_ok grouped
  have nothing : Grouping.start.FlipsTo Grouping.start := ⟨.nil, .nil⟩
  obtain ⟨after, alsoRead, turns⟩ := nothing.operations (Circuit.flipped_eq_ok_iff.mp flips) read
  exact ⟨after.schedule, by rw [ofCircuit, alsoRead]; rfl, turns.schedule⟩

/-- A circuit with measurements, rotations, fused exchanges, feedback from either side, a
    block and an observable with operators. -/
def Circuit.turningSample : Circuit :=
  [.single (.onQubits (.reset .X) [0, 1]), .single (.onQubits (.sqrtPauli .Z true) [0, 0, 2]),
    .block 3
      [.single (.onQubits .cxSwap [0, 1, 1, 2]), .single (.onQubits (.measureReset .Y) [2, 2]),
        .single .tick, .single (.on (.controlled .Z .X) [.record 1, .plain 2]),
        .single (.on (.controlled .Y .Z) [.plain 0, .sweep 1]),
        .single (.onQubits (.sqrtProduct .X true) [0, 1])],
    .single ⟨.known .observableInclude, [.record 1, .pauli .Z 2 true], [1]⟩]

/-- The sample is grouped alike before and after the flip. -/
theorem Schedule.ofCircuit_flipped_sample :
    ∃ schedule flipped others, ofCircuit Circuit.turningSample = .ok schedule ∧
      Circuit.turningSample.flipped = .ok flipped ∧ ofCircuit flipped = .ok others ∧
      List.Forall₂ Layer.FlipsTo schedule others := by
  obtain ⟨schedule, grouped⟩ : ∃ schedule, ofCircuit Circuit.turningSample = .ok schedule :=
    exists_of_isOk (by decide +kernel)
  obtain ⟨flipped, flips⟩ : ∃ flipped, Circuit.turningSample.flipped = .ok flipped :=
    exists_of_isOk (by decide +kernel)
  obtain ⟨others, alsoGrouped, each⟩ := ofCircuit_flipped grouped flips
  exact ⟨schedule, flipped, others, grouped, flips, alsoGrouped, each⟩

end StabilizerLayers
