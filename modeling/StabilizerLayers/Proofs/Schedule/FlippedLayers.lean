import StabilizerLayers.Proofs.Circuit.AxisFlips
import StabilizerLayers.Proofs.Schedule.Merging

/-!
# Layers with X and Z exchanged

A layer is flipped entry by entry: every axis is exchanged, and every rotation is put
between two exchanges of X and Z. Couplings that are followed by an exchange are compared
without the order of their operands, since the operands change places anyway.

A flip keeps the qubits of a layer, so two layers share a slot exactly if the flipped
layers do.
-/

namespace StabilizerLayers

/-! ### Rotations -/

namespace Rotation

/-- The rotation between two exchanges of X and Z. -/
def flipped (rotation : Rotation) : Rotation :=
  ((exchange .Y).followedBy rotation).followedBy (exchange .Y)

/-- The rotation that fixes Y exchanges X and Z. -/
@[simp]
theorem apply_exchange_Y (basis : Basis) : (exchange .Y).apply basis = basis.flipped := by
  cases basis <;> rfl

/-- A flipped rotation does to flipped axes what the rotation does to axes. -/
@[simp]
theorem apply_flipped (rotation : Rotation) (basis : Basis) :
    rotation.flipped.apply basis = (rotation.apply basis.flipped).flipped := by
  simp [flipped]

/-- Flipping a rotation twice gives the rotation back. -/
@[simp]
theorem flipped_flipped (rotation : Rotation) : rotation.flipped.flipped = rotation :=
  ext_apply fun basis => by simp

/-- The identity is its own flip. -/
@[simp]
theorem flipped_identity : identity.flipped = identity := rfl

/-- Rotations are conjugated one by one. -/
theorem flipped_followedBy (first second : Rotation) :
    (first.followedBy second).flipped = first.flipped.followedBy second.flipped :=
  ext_apply fun basis => by simp

/-- Only the identity flips to the identity. -/
@[simp]
theorem isIdentity_flipped (rotation : Rotation) :
    rotation.flipped.isIdentity = rotation.isIdentity := by
  rcases rotation with _ | (_ | _ | _) | _ | _ <;> rfl

end Rotation

namespace RotationLayer

/-- The layer with every rotation conjugated. -/
def flipped (layer : RotationLayer) : RotationLayer := ⟨layer.rotations.mapValues Rotation.flipped⟩

/-- Flipping a layer twice gives the layer back. -/
@[simp]
theorem flipped_flipped (layer : RotationLayer) : layer.flipped.flipped = layer :=
  congrArg RotationLayer.mk (layer.rotations.mapValues_mapValues Rotation.flipped_flipped)

/-- A conjugated rotation is appended to the conjugated layer. -/
theorem flipped_append (layer : RotationLayer) (id : Qubit) (rotation : Rotation) :
    (layer.append id rotation).flipped = layer.flipped.append id rotation.flipped := by
  refine congrArg RotationLayer.mk (layer.rotations.mapValues_upsert id fun old => ?_)
  cases old with
  | none => simp
  | some earlier => simp [Rotation.flipped_followedBy]

/-- Conjugated rotations are appended to the conjugated layer. -/
theorem flipped_appendAll (layer : RotationLayer) (entries : List (Qubit × Rotation)) :
    (layer.appendAll entries).flipped =
      layer.flipped.appendAll (entries.map fun entry => (entry.1, entry.2.flipped)) := by
  induction entries generalizing layer with
  | nil => rfl
  | cons head rest inductionHypothesis =>
    rw [appendAll, inductionHypothesis, flipped_append, List.map_cons, appendAll]

/-- The conjugated layer of a list of rotations. -/
theorem flipped_ofList (entries : List (Qubit × Rotation)) :
    (ofList entries).flipped = ofList (entries.map fun entry => (entry.1, entry.2.flipped)) :=
  flipped_appendAll empty entries

/-- Identities stay identities. -/
theorem flipped_withoutIdentities (layer : RotationLayer) :
    layer.withoutIdentities.flipped = layer.flipped.withoutIdentities := by
  refine congrArg RotationLayer.mk (QubitMap.ext_entries ?_)
  simp [flipped, withoutIdentities, QubitMap.mapValues, QubitMap.filter, List.filter_map,
    Function.comp_def]

/-- Layers are conjugated one by one. -/
theorem flipped_followedBy (layer next : RotationLayer) :
    (layer.followedBy next).flipped = layer.flipped.followedBy next.flipped := by
  rw [followedBy, flipped_withoutIdentities, flipped_appendAll]
  rfl

end RotationLayer

/-! ### Entries -/

/-- The operand with its axis flipped. -/
def Leg.flipped (leg : Leg) : Leg := { leg with basis := leg.basis.flipped }

/-- The coupling with both axes flipped. -/
def Coupling.flipped (coupling : Coupling) : Coupling :=
  ⟨coupling.first.flipped, coupling.second.flipped⟩

/-- The square root with its axis flipped. -/
def SqrtPair.flipped (pair : SqrtPair) : SqrtPair := { pair with basis := pair.basis.flipped }

/-- The measurement with its axis flipped. -/
def Measurement.flipped (target : Measurement) : Measurement :=
  { target with basis := target.basis.flipped }

/-- The feedback with its axis flipped. -/
def Feedback.flipped (entry : Feedback) : Feedback := { entry with basis := entry.basis.flipped }

/-- The detector or observable with the axes of its operators flipped. -/
def Instruction.flippedTargets (instruction : Instruction) : Instruction :=
  { instruction with targets := instruction.targets.map Target.flipped }

/-- A flipped square root is on the same qubits. -/
theorem SqrtPair.mem_qubits_flipped (pair : SqrtPair) (id : Qubit) :
    id ∈ pair.flipped.qubits ↔ id ∈ pair.qubits :=
  Iff.rfl

/-- Whether a coupling is another one flipped, its operands in either order. -/
def Coupling.FlipsTo (coupling other : Coupling) : Prop :=
  other = coupling.flipped ∨ other = coupling.flipped.reversed

namespace Layer

/-- Whether a layer is another one with X and Z exchanged: kinds, qubits, order,
    repetitions and numbers stay, every axis is flipped and every rotation conjugated. -/
inductive FlipsTo : Layer → Layer → Prop where
  | reset (targets : QubitMap Basis) :
      FlipsTo (.reset targets) (.reset (targets.mapValues Basis.flipped))
  | measure (targets : List Measurement) :
      FlipsTo (.measure targets) (.measure (targets.map Measurement.flipped))
  | interact (couplings : List Coupling) :
      FlipsTo (.interact couplings) (.interact (couplings.map Coupling.flipped))
  | interactSwap {couplings others : List Coupling}
      (each : List.Forall₂ Coupling.FlipsTo couplings others) :
      FlipsTo (.interactSwap couplings) (.interactSwap others)
  | swap (pairs : List (Qubit × Qubit)) : FlipsTo (.swap pairs) (.swap pairs)
  | sqrtProduct (pairs : List SqrtPair) :
      FlipsTo (.sqrtProduct pairs) (.sqrtProduct (pairs.map SqrtPair.flipped))
  | feedback (entries : List Feedback) :
      FlipsTo (.feedback entries) (.feedback (entries.map Feedback.flipped))
  | rotation (rotations : RotationLayer) :
      FlipsTo (.rotation rotations) (.rotation rotations.flipped)
  | parity (instructions : List Instruction) :
      FlipsTo (.parity instructions) (.parity (instructions.map Instruction.flippedTargets))
  | qubitCoords (coordinates : QubitMap (List Float)) :
      FlipsTo (.qubitCoords coordinates) (.qubitCoords coordinates)
  | shiftCoords (shift : List Float) : FlipsTo (.shiftCoords shift) (.shiftCoords shift)
  | empty : FlipsTo .empty .empty
  | loop (repetitions : UInt64) {body others : List Layer}
      (inner : List.Forall₂ FlipsTo body others) :
      FlipsTo (.loop repetitions body) (.loop repetitions others)

end Layer

namespace Coupling

variable {coupling other : Coupling}

/-- Flips of a coupling can be undone. -/
theorem FlipsTo.symm (flips : coupling.FlipsTo other) : other.FlipsTo coupling := by
  rcases flips with rfl | rfl
  · exact .inl (by simp [flipped, Leg.flipped])
  · exact .inr (by simp [flipped, Leg.flipped, reversed])

/-- A flipped coupling is on the same qubits. -/
theorem FlipsTo.mem_qubits (flips : coupling.FlipsTo other) {id : Qubit} :
    id ∈ other.qubits ↔ id ∈ coupling.qubits := by
  rcases flips with rfl | rfl
  · rfl
  · simp [qubits, flipped, Leg.flipped, reversed, or_comm]

/-- Flipped couplings are on the same qubits. -/
theorem FlipsTo.mem_flatMap_qubits {couplings others : List Coupling}
    (each : List.Forall₂ FlipsTo couplings others) {id : Qubit} :
    id ∈ others.flatMap qubits ↔ id ∈ couplings.flatMap qubits := by
  induction each with
  | nil => rfl
  | cons flips _ inductionHypothesis =>
    rw [List.flatMap_cons, List.flatMap_cons, List.mem_append, List.mem_append, flips.mem_qubits,
      inductionHypothesis]

end Coupling

/-! ### Merging -/

namespace Layer

variable {first second both layer other flippedFirst flippedSecond : Layer}

mutual

/-- Flips of a layer can be undone. -/
theorem FlipsTo.symm {layer other : Layer} (flips : layer.FlipsTo other) : other.FlipsTo layer := by
  cases layer with
  | reset targets =>
    cases flips
    have back := FlipsTo.reset (targets.mapValues Basis.flipped)
    rwa [targets.mapValues_mapValues Basis.flipped_flipped] at back
  | measure targets =>
    cases flips
    have back := FlipsTo.measure (targets.map Measurement.flipped)
    rwa [Function.Involutive.list_map (fun target => by simp [Measurement.flipped]) _] at back
  | interact couplings =>
    cases flips
    have back := FlipsTo.interact (couplings.map Coupling.flipped)
    rwa [Function.Involutive.list_map (fun coupling => by
      simp [Coupling.flipped, Leg.flipped]) _] at back
  | interactSwap couplings =>
    cases flips with
    | interactSwap each => exact .interactSwap (each.flip.imp fun _ _ => Coupling.FlipsTo.symm)
  | sqrtProduct pairs =>
    cases flips
    have back := FlipsTo.sqrtProduct (pairs.map SqrtPair.flipped)
    rwa [Function.Involutive.list_map (fun pair => by simp [SqrtPair.flipped]) _] at back
  | feedback entries =>
    cases flips
    have back := FlipsTo.feedback (entries.map Feedback.flipped)
    rwa [Function.Involutive.list_map (fun entry => by simp [Feedback.flipped]) _] at back
  | rotation rotations =>
    cases flips
    have back := FlipsTo.rotation rotations.flipped
    rwa [rotations.flipped_flipped] at back
  | parity instructions =>
    cases flips
    have back := FlipsTo.parity (instructions.map Instruction.flippedTargets)
    rwa [Function.Involutive.list_map (fun instruction => by
      simp [Instruction.flippedTargets,
        Function.Involutive.list_map Target.flipped_flipped _]) _] at back
  | swap _ | qubitCoords _ | shiftCoords _ | empty =>
    cases flips
    constructor
  | iswap _ | product _ => cases flips
  | loop repetitions body =>
    cases flips with
    | loop _ inner => exact .loop repetitions (FlipsTo.symmAll inner)

/-- Flips of layers can be undone. -/
theorem FlipsTo.symmAll {layers others : List Layer} (flips : List.Forall₂ FlipsTo layers others) :
    List.Forall₂ FlipsTo others layers := by
  cases layers with
  | nil =>
    cases flips
    exact .nil
  | cons first rest =>
    cases flips with
    | cons here later => exact .cons here.symm (FlipsTo.symmAll later)

end

/-- Entries on the qubits of entries that can be merged can be merged too. -/
theorem FlipsTo.exists_mergeDisjoint {α : Type} {build : List α → Layer}
    {first second others rest : List α}
    (mine : ∀ id, id ∈ (build others).touched ↔ id ∈ (build first).touched)
    (theirs : ∀ id, id ∈ (build rest).touched ↔ id ∈ (build second).touched)
    (flips : (build (first ++ second)).FlipsTo (build (others ++ rest)))
    (apart : ∀ id ∈ (build first).touched, id ∉ (build second).touched) :
    ∃ merged, mergeDisjoint (fun entries => (build entries).touched) build others rest =
      some merged ∧ (build (first ++ second)).FlipsTo merged := by
  refine ⟨_, if_pos (disjoint_eq_true_iff.mpr fun id held joined => ?_), flips⟩
  exact apart id ((mine id).mp held) ((theirs id).mp joined)

/-- Where two layers share a slot, so do the flipped layers. -/
theorem FlipsTo.exists_absorb? (here : first.FlipsTo flippedFirst)
    (there : second.FlipsTo flippedSecond) (found : first.absorb? second = some both) :
    ∃ merged, flippedFirst.absorb? flippedSecond = some merged ∧ both.FlipsTo merged := by
  cases absorbs_of_absorb? found with
  | @reset first second apart =>
    cases here
    cases there
    have flips := FlipsTo.reset (first.insertAll second.entries)
    rw [QubitMap.mapValues_insertAll] at flips
    refine ⟨_, ?_, flips⟩
    simp only [absorb?, QubitMap.keys_mapValues, QubitMap.contains_mapValues, apart]
    rfl
  -- Flipping keeps the qubits, so that layers which are apart stay apart.
  | measure apart =>
    cases here
    cases there
    refine exists_mergeDisjoint ?_ ?_ (List.map_append ▸ .measure _) apart <;>
      simp [touched, Measurement.flipped]
  | interact apart =>
    cases here
    cases there
    refine exists_mergeDisjoint ?_ ?_ (List.map_append ▸ .interact _) apart <;>
      simp [touched, Coupling.flipped, Coupling.qubits, Leg.flipped]
  | sqrtProduct apart =>
    cases here
    cases there
    refine exists_mergeDisjoint ?_ ?_ (List.map_append ▸ .sqrtProduct _) apart <;>
      simp [touched, SqrtPair.flipped, SqrtPair.qubits]
  | feedback apart =>
    cases here
    cases there
    refine exists_mergeDisjoint ?_ ?_ (List.map_append ▸ .feedback _) apart <;>
      simp [touched, Feedback.flipped]
  | interactSwap apart =>
    cases here with
    | interactSwap each =>
      cases there with
      | interactSwap others =>
        exact exists_mergeDisjoint (fun _ => Coupling.FlipsTo.mem_flatMap_qubits each)
          (fun _ => Coupling.FlipsTo.mem_flatMap_qubits others)
          (.interactSwap (List.rel_append each others)) apart
  | rotation first second =>
    cases here
    cases there
    exact ⟨_, rfl, RotationLayer.flipped_followedBy first second ▸ .rotation _⟩
  | parity first second =>
    cases here
    cases there
    exact ⟨_, rfl, List.map_append ▸ .parity _⟩
  | swap _ | qubitCoords _ _ | shiftCoords _ _ =>
    cases here
    cases there
    exact ⟨_, found, by constructor⟩
  | iswap _ | product _ => cases here

/-- Two layers share a slot exactly if the flipped layers do, and then what they come to
    is flipped. -/
theorem FlipsTo.absorb? (here : first.FlipsTo flippedFirst) (there : second.FlipsTo flippedSecond) :
    Option.Rel FlipsTo (first.absorb? second) (flippedFirst.absorb? flippedSecond) := by
  cases found : first.absorb? second with
  | some both =>
    obtain ⟨merged, alsoFound, flips⟩ := here.exists_absorb? there found
    rw [alsoFound]
    exact .some flips
  | none =>
    cases alsoFound : flippedFirst.absorb? flippedSecond with
    | none => exact .none
    | some merged =>
      obtain ⟨both, mine, -⟩ := here.symm.exists_absorb? there.symm alsoFound
      cases found.symm.trans mine

end Layer

end StabilizerLayers
