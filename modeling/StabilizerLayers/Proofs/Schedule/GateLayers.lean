import StabilizerLayers.Proofs.Schedule.InstructionLayers

/-!
# Layers of each gate

For every gate that has layers, these stand for what the gate does to the targets
of a valid instruction.
-/

namespace StabilizerLayers

namespace Instruction

variable {instruction : Instruction} {layers : List Layer}

/-! ### Measurements and resets -/

/-- What a measurement or reset does to one target. -/
def collapseActions (measured reset : Option Basis) (target : Qubit × Bool) : List Action :=
  (measured.map fun basis => Action.measure ⟨target.1, basis, target.2⟩).toList ++
    (reset.map fun basis => Action.reset target.1 basis).toList

/-- The measurement layer of a run. -/
theorem standFor_measureRun {run : List (Qubit × Bool)}
    (once : (run.flatMap fun target => [target.1]).Nodup) (measured : Option Basis) :
    StandFor
      (measured.map fun basis =>
        Layer.measure (run.map fun (id, inverted) => ⟨id, basis, inverted⟩)).toList
      (run.flatMap fun target =>
        (measured.map fun basis => Action.measure ⟨target.1, basis, target.2⟩).toList) := by
  cases measured with
  | none =>
    have nothing : (run.flatMap fun _ => ([] : List Action)) = [] :=
      List.flatMap_eq_nil_iff.mpr fun _ _ => rfl
    exact nothing ▸ StandFor.nil
  | some basis =>
    refine StandFor.single ?_ ?_
    · have named : (run.map fun target => target.1).Nodup := by
        rw [List.map_eq_flatMap]
        exact once
      simpa [Layer.Formed, Layer.WellFormed, Layer.touched, Function.comp_def] using named
    · rw [Layer.actions, List.map_map, List.map_eq_flatMap]
      exact .refl _

/-- The reset layer of a run. -/
theorem standFor_resetRun {run : List (Qubit × Bool)}
    (once : (run.flatMap fun target => [target.1]).Nodup) (reset : Option Basis) :
    StandFor
      (reset.map fun basis => Layer.reset (.ofList (run.map fun (id, _) => (id, basis)))).toList
      (run.flatMap fun target => (reset.map fun basis => Action.reset target.1 basis).toList) := by
  cases reset with
  | none =>
    have nothing : (run.flatMap fun _ => ([] : List Action)) = [] :=
      List.flatMap_eq_nil_iff.mpr fun _ _ => rfl
    exact nothing ▸ StandFor.nil
  | some basis =>
    have named : ((run.map fun target => (target.1, basis)).map Prod.fst).Nodup := by
      rw [List.map_map, List.map_eq_flatMap]
      exact once
    have sorted := Layer.agrees_resets (QubitMap.ofList_perm named) (QubitMap.nodup_keys _)
    refine StandFor.single trivial (sorted.trans ?_)
    rw [List.map_map, List.map_eq_flatMap]
    exact .refl _

/-- The layers of a run of a measurement or reset. -/
theorem standFor_collapseRun {run : List (Qubit × Bool)}
    (once : (run.flatMap fun target => [target.1]).Nodup) (measured reset : Option Basis) :
    StandFor
      ((measured.map fun basis =>
        Layer.measure (run.map fun (id, inverted) => ⟨id, basis, inverted⟩)).toList ++
      (reset.map fun basis => Layer.reset (.ofList (run.map fun (id, _) => (id, basis)))).toList)
      (run.flatMap (collapseActions measured reset)) := by
  have rounds := (standFor_measureRun once measured).append (standFor_resetRun once reset)
  refine rounds.of_agrees (Agrees.flatMap_append (pairwise_independent once ?_ ?_ ?_)).symm
  · intro target action made
    obtain ⟨basis, -, rfl⟩ := Option.map_eq_some_iff.mp (Option.mem_toList.mp made)
    exact List.Subset.refl _
  · intro target action made
    obtain ⟨basis, -, rfl⟩ := Option.map_eq_some_iff.mp (Option.mem_toList.mp made)
    exact List.Subset.refl _
  · intro target other action made next _
    obtain ⟨basis, -, rfl⟩ := Option.map_eq_some_iff.mp (Option.mem_toList.mp made)
    exact .inl rfl

/-- A measurement or reset has layers if it is without noise and acts on qubits, which
    are not marked where they are only reset. The layers are those of its runs. -/
theorem collapseLayers_eq_ok_iff {measured reset : Option Basis} :
    instruction.collapseLayers measured reset = .ok layers ↔
      instruction.hasNonzeroArgument = false ∧ ∃ targets : List (Qubit × Bool),
        instruction.targets = (targets.map fun target => .qubit target.1 target.2) ∧
        (measured = none → ∀ target ∈ targets, target.2 = false) ∧
        layers = (runs (fun target => [target.1]) targets).flatMap fun run =>
          (measured.map fun basis =>
            Layer.measure (run.map fun (id, inverted) => ⟨id, basis, inverted⟩)).toList ++
          (reset.map fun basis =>
            Layer.reset (.ofList (run.map fun (id, _) => (id, basis)))).toList := by
  -- An inversion mark has no meaning only where nothing is measured.
  have marked : ∀ targets : List (Qubit × Bool),
      ((measured.isNone && targets.any fun target => target.2) = true) ↔
        ¬ (measured = none → ∀ target ∈ targets, target.2 = false) := by
    intro targets
    cases measured <;> simp
  constructor
  · intro read
    simp only [collapseLayers, bind, Except.bind, pure, Except.pure, refused] at read
    split at read
    · cases read
    · rename_i noiseless
      split at read
      · cases read
      · rename_i targets named
        split at read
        · cases read
        · rename_i unmarked
          refine ⟨Bool.eq_false_iff.mpr noiseless, targets, ?_,
            not_not.mp (mt (marked targets).mpr unmarked), (Except.ok.inj read).symm⟩
          refine eq_map_of_mapM (fun target pair single => ?_) named
          cases target with
          | qubit id inverted =>
            obtain rfl : (id, inverted) = pair := by simpa using single
            rfl
          | record _ | sweep _ | pauli _ _ _ | combiner => simp at single
  · rintro ⟨noiseless, targets, named, plain, rfl⟩
    have unmarked := mt (marked targets).mp (not_not.mpr plain)
    have listed : (targets.mapM fun target =>
        (.ok (target.1, target.2) : Except TransformError (Qubit × Bool))) = .ok targets :=
      (mapM_eq_ok fun _ _ => rfl).trans (congrArg _ (List.map_id targets))
    simp only [collapseLayers, noiseless, named, List.mapM_map, Function.comp_def]
    rw [listed]
    simp [bind, Except.bind, pure, Except.pure, Bool.eq_false_iff.mpr unmarked]

/-- The layers of a measurement or reset. -/
theorem standFor_collapseLayers {measured reset : Option Basis}
    (read : instruction.collapseLayers measured reset = .ok layers) :
    StandFor layers (instruction.targets.flatMap fun
      | .qubit id inverted => collapseActions measured reset (id, inverted)
      | _ => []) := by
  obtain ⟨-, targets, named, -, rfl⟩ := collapseLayers_eq_ok_iff.mp read
  rw [named, List.flatMap_map]
  exact StandFor.runs (by simp) fun run once => standFor_collapseRun once measured reset

/-! ### Pairs -/

/-- Layers of pairs come from the pairs of qubits of the targets. -/
theorem plainPairs_map_eq_ok {build : List (Qubit × Qubit) → List Layer}
    (read : instruction.plainPairs.map build = .ok layers) :
    layers = build instruction.qubitPairs := by
  cases plain : instruction.plainPairs with
  | error fault => simp [plain, Except.map] at read
  | ok pairs =>
    rw [qubitPairs_of_plainPairs plain]
    simpa [plain, Except.map] using read.symm

/-- The layers of a gate that exchanges pairs of qubits in some way, whatever
    their order. -/
theorem standFor_exchangeLayers {build : List (Qubit × Qubit) → Layer}
    {act : Qubit → Qubit → Action} (read : instruction.exchangeLayers build = .ok layers)
    (distinct : ∀ pair ∈ instruction.qubitPairs, (pairQubits pair).Nodup)
    (formed : ∀ pairs, (pairs.flatMap pairQubits).Nodup → (build pairs).Formed)
    (actions : ∀ pairs, (build pairs).actions = pairs.map fun (id, other) => act id other)
    (comm : ∀ first second, Agrees [act second first] [act first second]) :
    StandFor layers (instruction.qubitPairs.map fun (id, other) => act id other) := by
  rw [plainPairs_map_eq_ok read, List.map_eq_flatMap, List.map_eq_flatMap]
  refine StandFor.runs distinct fun run once => StandFor.single (formed _ ?_) ?_
  · have sorted : ((run.map fun (id, other) => smallerFirst id other).flatMap pairQubits).Perm
        (run.flatMap pairQubits) := by
      rw [List.flatMap_map]
      exact List.Perm.flatMap_left _ fun pair _ => perm_pairQubits_smallerFirst pair.1 pair.2
    exact sorted.nodup_iff.mpr once
  · rw [actions, List.map_map, List.map_eq_flatMap]
    exact Agrees.flatMap fun pair _ => Agrees.smallerFirst comm pair.1 pair.2

/-- The layers of a gate that couples and exchanges pairs of qubits. -/
theorem standFor_couplingSwapLayers {couple : Qubit × Qubit → Coupling}
    {actions : Qubit × Qubit → List Action}
    (read : instruction.couplingSwapLayers couple = .ok layers)
    (distinct : ∀ pair ∈ instruction.qubitPairs, (pairQubits pair).Nodup)
    (qubits : ∀ pair, (couple pair).qubits.Perm (pairQubits pair))
    (each : ∀ pair, Agrees (Layer.coupleSwap (couple pair)) (actions pair)) :
    StandFor layers (instruction.qubitPairs.flatMap actions) := by
  rw [plainPairs_map_eq_ok read, List.map_eq_flatMap]
  have coupled : StandFor
      ((runs Coupling.qubits (instruction.qubitPairs.map couple)).flatMap fun run =>
        [Layer.interactSwap run])
      ((instruction.qubitPairs.map couple).flatMap Layer.coupleSwap) := by
    refine StandFor.runs (fun coupling member => ?_) fun run once =>
      StandFor.single once (.refl _)
    obtain ⟨pair, listed, rfl⟩ := List.mem_map.mp member
    exact (qubits pair).nodup_iff.mpr (distinct pair listed)
  rw [List.flatMap_map] at coupled
  exact coupled.of_agrees (Agrees.flatMap fun pair _ => each pair)

/-- The layers of a square root of a Pauli product. -/
theorem standFor_sqrtLayers {axis : Basis} {dagger : Bool}
    (read : instruction.plainPairs.map (fun pairs =>
      (runs SqrtPair.qubits (pairs.map fun (id, other) => ⟨id, other, axis, dagger⟩)).map
        Layer.sqrtProduct) = .ok layers)
    (distinct : ∀ pair ∈ instruction.qubitPairs, (pairQubits pair).Nodup) :
    StandFor layers
      (instruction.qubitPairs.map fun (id, other) => .sqrtProduct ⟨id, other, axis, dagger⟩) := by
  let roots : List SqrtPair :=
    instruction.qubitPairs.map fun (id, other) => ⟨id, other, axis, dagger⟩
  have stand : StandFor
      ((runs SqrtPair.qubits roots).flatMap fun run => [Layer.sqrtProduct run])
      (roots.flatMap fun pair => [.sqrtProduct pair]) := by
    refine StandFor.runs (fun pair member => ?_) fun run once => StandFor.single once ?_
    · obtain ⟨qubits, listed, rfl⟩ := List.mem_map.mp member
      exact distinct qubits listed
    · rw [Layer.actions, List.map_eq_flatMap]
      exact .refl _
  rw [← List.map_eq_flatMap, ← List.map_eq_flatMap, List.map_map] at stand
  rw [plainPairs_map_eq_ok read]
  exact stand

/-! ### Controlled Paulis -/

/-- What a part of an interaction does. -/
def PairPart.actions : PairPart → List Action
  | .coupling pair => [.couple pair]
  | .feedback entry => [.feedback entry]

/-- Couplings that are held back stand for themselves. -/
theorem standFor_couplingLayers {held : List Coupling}
    (distinct : ∀ coupling ∈ held, coupling.qubits.Nodup) :
    StandFor (couplingLayers held) (held.reverse.flatMap fun coupling => [.couple coupling]) := by
  rw [couplingLayers, List.map_eq_flatMap]
  refine StandFor.runs (fun coupling member => distinct coupling (List.mem_reverse.mp member))
    fun run once => StandFor.single once ?_
  rw [Layer.actions, List.map_eq_flatMap]
  exact .refl _

/-- Whether a part couples two qubits or has a classical control. -/
def PairPart.Proper : PairPart → Prop
  | .coupling pair => pair.qubits.Nodup
  | .feedback entry => entry.control.isClassical = true

/-- The layers of parts stand for the parts in order. -/
theorem standFor_partLayers {held : List Coupling} {parts : List PairPart}
    (distinct : ∀ coupling ∈ held, coupling.qubits.Nodup)
    (proper : ∀ part ∈ parts, part.Proper) :
    StandFor (partLayers held parts)
      ((held.reverse.flatMap fun coupling => [.couple coupling]) ++
        parts.flatMap PairPart.actions) := by
  fun_induction partLayers held parts with
  | case1 held => simpa using standFor_couplingLayers distinct
  | case2 held coupling rest inductionHypothesis =>
    have here : coupling.qubits.Nodup := proper _ (.head _)
    have later := inductionHypothesis
      (fun other member => by
        rcases List.mem_cons.mp member with rfl | before
        · exact here
        · exact distinct other before)
      (fun part member => proper part (.tail _ member))
    simpa [PairPart.actions] using later
  | case3 held entry rest inductionHypothesis =>
    have classical : entry.control.isClassical = true := proper _ (.head _)
    have single : StandFor [Layer.feedback [entry]] [.feedback entry] := by
      refine StandFor.single (fun other member => ?_) (.refl _)
      exact (List.mem_singleton.mp member) ▸ classical
    have later := inductionHypothesis (by simp) (fun part member => proper part (.tail _ member))
    have whole := (standFor_couplingLayers distinct).append (single.append later)
    simpa [PairPart.actions] using whole

/-- A target pair that is read as a part does what the part does. -/
theorem pairPart_eq_ok {first second : Basis} {pair : Target × Target} {part : PairPart}
    (read : instruction.pairPart first second pair = .ok part) :
    controlledActions first second pair = part.actions ∧
      (validatePair (.controlled first second) pair.1 pair.2 = .ok () → part.Proper) := by
  rw [pairPart.eq_def] at read
  split at read
  · rename_i id other
    obtain rfl := Except.ok.inj read
    refine ⟨rfl, fun valid => ?_⟩
    by_cases same : id = other
    · simp [validatePair, acceptsPaired, Target.isQubit, Target.isClassical, Target.qubit?,
        same] at valid
    · simpa [PairPart.Proper, Coupling.qubits] using same
  · split at read
    · rename_i control _ _ id _
      simp only [refused] at read
      split at read
      · rename_i classical
        obtain rfl := Except.ok.inj read
        obtain ⟨bit, -⟩ := Bool.and_eq_true_iff.mp classical
        exact ⟨controlledActions_classical_left bit first second id false, fun _ => bit⟩
      · cases read
    · rename_i control _ _ id _ _
      simp only [refused] at read
      split at read
      · rename_i classical
        obtain rfl := Except.ok.inj read
        obtain ⟨bit, -⟩ := Bool.and_eq_true_iff.mp classical
        exact ⟨controlledActions_classical_right bit first second id false, fun _ => bit⟩
      · cases read
    · cases read

/-- The layers of a controlled Pauli. -/
theorem standFor_interactionLayers {first second : Basis}
    (applied : instruction.gate? = some (.controlled first second))
    (valid : instruction.validate = .ok ())
    (read : instruction.interactionLayers first second = .ok layers) :
    StandFor layers (instruction.targetPairs.flatMap (controlledActions first second)) := by
  obtain ⟨-, checked⟩ := validatePairs_of_validate applied rfl valid
  rw [interactionLayers] at read
  cases named : instruction.targetPairs.mapM (instruction.pairPart first second) with
  | error fault => simp [named, Except.map] at read
  | ok parts =>
    obtain rfl : partLayers [] parts = layers := by simpa [named, Except.map] using read
    have each := forall₂_of_mapM named
    have sameActions : instruction.targetPairs.flatMap (controlledActions first second) =
        parts.flatMap PairPart.actions := by
      rw [List.flatMap_def, List.flatMap_def]
      refine congrArg List.flatten ?_
      have told : List.Forall₂ (fun pair part =>
          controlledActions first second pair = part.actions) instruction.targetPairs parts :=
        each.imp fun pair part read => (pairPart_eq_ok read).1
      rwa [← List.forall₂_map_right_iff, ← List.forall₂_map_left_iff, List.forall₂_eq_eq_eq] at told
    have proper : ∀ part ∈ parts, part.Proper := by
      intro part member
      obtain ⟨pair, listed, read⟩ := exists_of_mem_mapM named member
      exact (pairPart_eq_ok read).2 (validatePair_of_validatePairs checked listed)
    rw [sameActions]
    exact standFor_partLayers (by simp) proper

/-! ### Product measurements -/

/-- A product that a combiner joins to one in progress continues it. -/
theorem productsFrom_joined {factors : List Target} (whole : isProduct factors = true)
    {progress : List Target} (started : progress ≠ []) (rest : List Target) :
    productsFrom progress true (factors ++ rest) =
      productsFrom (factors.reverse ++ progress) false rest := by
  fun_induction isProduct factors generalizing progress with
  | case1 => simp [productsFrom, started]
  | case2 basis id inverted later inductionHypothesis =>
    simp [productsFrom, started, inductionHypothesis whole]
  | case3 => simp at whole

/-- A product in progress is complete where the next operator is not joined. -/
theorem productsFrom_complete {progress : List Target} (started : progress ≠ [])
    {rest : List Target} (next : ∀ target ∈ rest.head?, target.isPauli = true) :
    productsFrom progress false rest = progress.reverse :: productsFrom [] false rest := by
  cases rest with
  | nil => simp [productsFrom, started]
  | cons target later =>
    have operator : target.isPauli = true := next target (by simp)
    cases target with
    | pauli basis id inverted => simp [productsFrom, started]
    | qubit _ _ | record _ | sweep _ | combiner => simp [Target.isPauli] at operator

/-- A product at the start is cut off. -/
theorem productsFrom_append {factors rest : List Target} (whole : isProduct factors = true)
    (next : ∀ target ∈ rest.head?, target.isPauli = true) :
    productsFrom [] false (factors ++ rest) = factors :: productsFrom [] false rest := by
  fun_cases isProduct factors with
  | case1 basis id inverted =>
    have started : [Target.pauli basis id inverted] ≠ [] := by simp
    simpa [productsFrom] using productsFrom_complete started next
  | case2 basis id inverted later =>
    have joined : isProduct later = true := by simpa [isProduct] using whole
    have started : [Target.combiner, .pauli basis id inverted] ≠ [] := by simp
    have grown : later.reverse ++ [Target.combiner, .pauli basis id inverted] ≠ [] := by simp
    have continued := productsFrom_joined joined started rest
    simpa [productsFrom] using continued.trans (productsFrom_complete grown next)
  | case3 => simp_all [isProduct]

/-- Products that are put together are cut apart again. -/
theorem productsFrom_flatten {cuts : List (List Target)}
    (whole : ∀ factors ∈ cuts, isProduct factors = true) :
    productsFrom [] false cuts.flatten = cuts := by
  have both : productsFrom [] false cuts.flatten = cuts ∧
      ∀ target ∈ cuts.flatten.head?, target.isPauli = true := by
    induction cuts with
    | nil => simp [productsFrom]
    | cons factors rest inductionHypothesis =>
      obtain ⟨later, next⟩ := inductionHypothesis fun other member => whole other (.tail _ member)
      have here := whole factors (.head _)
      refine ⟨?_, fun target starts => ?_⟩
      · rw [List.flatten_cons, productsFrom_append here next, later]
      · refine isPauli_of_head? here ?_
        cases factors with
        | nil => simp [isProduct] at here
        | cons first others => simpa using starts
  exact both.1

/-- Products side by side are cut apart. -/
theorem productsFrom_eq_products {targets : List Target}
    (formed : StabilizerLayers.FormsProducts targets) :
    productsFrom [] false targets = products targets := by
  have whole := productsFrom_flatten formed
  rwa [products, List.flatten_splitBy] at whole

/-- The layers of a product measurement. -/
theorem standFor_productLayers (read : instruction.productLayers = .ok layers)
    (formed : StabilizerLayers.FormsProducts instruction.targets) :
    StandFor layers ((products instruction.targets).map .product) := by
  rw [productLayers] at read
  split at read
  · cases read
  · split at read
    · cases read
    · obtain rfl := Except.ok.inj read
      rw [productsFrom_eq_products formed, List.map_eq_flatMap, List.map_eq_flatMap]
      refine StandFor.flatMap fun factors member => ?_
      have whole := formed factors member
      refine StandFor.single (FormsProducts.of_isProduct whole) ?_
      rw [Layer.actions, products_of_isProduct whole]
      exact .refl _

/-! ### All gates -/

/-- The layers of a rotation. -/
theorem standFor_rotationLayers {rotation : Rotation}
    (read : instruction.plainQubits.map (fun ids =>
      [Layer.rotation (.ofList (ids.map fun id => (id, rotation)))]) = .ok layers) :
    StandFor layers (instruction.targets.flatMap fun
      | .qubit id _ => [.rotate id rotation]
      | _ => []) := by
  cases plain : instruction.plainQubits with
  | error fault => simp [plain, Except.map] at read
  | ok ids =>
    obtain rfl : [Layer.rotation (.ofList (ids.map fun id => (id, rotation)))] = layers := by
      simpa [plain, Except.map] using read
    refine StandFor.single trivial ((Agrees.rotation_ofList _).trans ?_)
    rw [plainQubits_eq_ok_iff.mp plain, List.flatMap_map, turns, List.map_map, List.map_eq_flatMap]
    exact .refl _

/-- The layers of a valid instruction do what it does. -/
theorem standFor_gateLayers {gate : Gate} (applied : instruction.gate? = some gate)
    (valid : instruction.validate = .ok ()) (formed : instruction.FormsProducts)
    (read : instruction.gateLayers gate = .ok layers) :
    StandFor layers (instruction.gateActions gate) := by
  have distinct : gate.shape = .pair →
      ∀ pair ∈ instruction.qubitPairs, (pairQubits pair).Nodup := fun paired pair member =>
    ne_of_mem_qubitPairs applied paired valid member
  cases gate with
  | detector | observableInclude =>
    obtain rfl := Except.ok.inj read
    refine StandFor.single (fun other member => ?_) (.refl _)
    obtain rfl := List.mem_singleton.mp member
    simp [isParity, applied]
  | shiftCoords =>
    obtain rfl := Except.ok.inj read
    exact StandFor.single trivial (.refl _)
  | qubitCoords =>
    rw [gateLayers] at read
    cases plain : instruction.plainQubits with
    | error fault => simp [plain, Except.map] at read
    | ok ids =>
      simp only [plain, Except.map] at read
      obtain rfl := Except.ok.inj read
      exact StandFor.single trivial (.refl _)
  | measureProduct => exact standFor_productLayers read (formed applied)
  | swap =>
    exact standFor_exchangeLayers read (distinct rfl) (fun _ once => once) (fun _ => rfl)
      Agrees.exchange_comm
  | iswap =>
    exact standFor_exchangeLayers read (distinct rfl) (fun _ once => once) (fun _ => rfl)
      Agrees.iswap_comm
  | cxSwap =>
    exact standFor_couplingSwapLayers read (distinct rfl) (fun _ => .refl _) fun _ => .refl _
  | czSwap =>
    exact standFor_couplingSwapLayers read (distinct rfl) (fun _ => .refl _) fun _ => .refl _
  | swapCx =>
    -- The exchange comes first, so the coupling before it acts on the other qubits.
    refine standFor_couplingSwapLayers read (distinct rfl) (fun _ => .swap _ _ _) fun pair => ?_
    have carried := Agrees.exchange_couple ⟨pair.1, .Z⟩ ⟨pair.2, .X⟩
    have flipped := (Agrees.refl [.couple ⟨⟨pair.2, .Z⟩, ⟨pair.1, .X⟩⟩]).append
      (Agrees.exchange_comm pair.1 pair.2)
    exact flipped.trans carried.symm
  | measure axis => exact standFor_collapseLayers read
  | reset axis => exact standFor_collapseLayers read
  | measureReset axis => exact standFor_collapseLayers read
  | controlled first second => exact standFor_interactionLayers applied valid read
  | sqrtProduct axis dagger => exact standFor_sqrtLayers read (distinct rfl)
  | identity | pauli _ | exchange _ | sqrtPauli _ _ | cycleXYZ | cycleZYX =>
    exact standFor_rotationLayers read
  | tick | iswapDag | pauliError _ | depolarize1 | depolarize2 | pauliChannel1 | pauliChannel2
  | correlatedError | elseCorrelatedError => cases read

/-- The layers of an instruction do what it does. -/
theorem standFor_layers (valid : instruction.validate = .ok ())
    (formed : instruction.FormsProducts) (read : instruction.layers = .ok layers) :
    StandFor layers instruction.actions := by
  rw [Instruction.layers] at read
  rw [actions]
  cases applied : instruction.gate? with
  | none => simp [applied, refused] at read
  | some gate =>
    rw [applied] at read
    exact standFor_gateLayers applied valid formed read

end Instruction

end StabilizerLayers
