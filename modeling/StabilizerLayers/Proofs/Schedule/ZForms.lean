import StabilizerLayers.Proofs.Schedule.Sweeping

/-!
# Z-basis forms do what the layers do

Each entry of a layer is its form along Z between a rotation and the rotation
back. As the entries of a layer act on distinct qubits, all rotations can be done
in one round before the layer, and all rotations back in one round after it.
-/

namespace StabilizerLayers

namespace Agrees

variable {α : Type} {entries : List α} {before back : α → List (Qubit × Rotation)}
  {plain alongZ : α → List Action}

/-- Entries on distinct qubits are rotated in one round before and one after. -/
theorem rounds (once : (entries.flatMap fun entry => (before entry).map Prod.fst).Nodup)
    (each : ∀ entry ∈ entries,
      Agrees (plain entry) (turns (before entry) ++ (alongZ entry ++ turns (back entry))))
    (within : ∀ entry, ∀ action ∈ alongZ entry, action.qubits ⊆ (before entry).map Prod.fst)
    (backWithin : ∀ entry, (back entry).map Prod.fst ⊆ (before entry).map Prod.fst) :
    Agrees (entries.flatMap plain)
      (turns (entries.flatMap before) ++
        (entries.flatMap alongZ ++ turns (entries.flatMap back))) := by
  have beforeWithin : ∀ entry, ∀ action ∈ turns (before entry),
      action.qubits ⊆ (before entry).map Prod.fst := fun _ _ made => qubits_turns_subset made
  have afterWithin : ∀ entry, ∀ action ∈ turns (back entry),
      action.qubits ⊆ (before entry).map Prod.fst := fun entry _ made _ member =>
    backWithin entry (qubits_turns_subset made member)
  have restWithin : ∀ entry, ∀ action ∈ alongZ entry ++ turns (back entry),
      action.qubits ⊆ (before entry).map Prod.fst := by
    intro entry action made
    rcases List.mem_append.mp made with here | later
    · exact within entry action here
    · exact afterWithin entry action later
  have outer := flatMap_append (pairwise_independent once restWithin beforeWithin
    fun _ _ _ _ _ turned => .inr (isRecord_of_mem_turns turned))
  have inner := flatMap_append (pairwise_independent once afterWithin within
    fun _ _ _ turned _ _ => .inl (isRecord_of_mem_turns turned))
  rw [turns_flatMap, turns_flatMap]
  exact ((flatMap each).trans outer).trans ((Agrees.refl _).append inner)

/-- Undoing rotations of distinct qubits undoes each. -/
theorem rotation_inverse_ofList {rotations : List (Qubit × Rotation)}
    (once : (rotations.map Prod.fst).Nodup) :
    Agrees (Layer.rotation (RotationLayer.ofList rotations).inverse).actions
      (turns (undone rotations)) := by
  refine (rotation fun id => ?_).trans (rotation_ofList (undone rotations))
  rw [RotationLayer.get_inverse, RotationLayer.get_ofList once,
    RotationLayer.get_ofList (by simpa using once), undone, QubitMap.find?_map]
  cases QubitMap.find? id rotations <;> rfl

end Agrees

namespace Layer

/-- A layer between rotations, with idle rotations or without them. -/
theorem agrees_between (before : RotationLayer) (layer : Layer) (after : RotationLayer) :
    Agrees (actionsAll (between before layer after))
      ((rotation before).actions ++ (layer.actions ++ (rotation after).actions)) := by
  rw [between, actionsAll_append, actionsAll]
  exact (Agrees.ofRotations before).append ((Agrees.refl _).append (Agrees.ofRotations after))

/-- A layer between rotations of distinct qubits and the rotations back. -/
theorem agrees_conjugated {rotations : List (Qubit × Rotation)}
    (once : (rotations.map Prod.fst).Nodup) (layer : Layer) :
    Agrees (actionsAll (conjugated rotations layer))
      (turns rotations ++ (layer.actions ++ turns (undone rotations))) := by
  rw [conjugated]
  refine (agrees_between _ _ _).trans ?_
  exact (Agrees.rotation_ofList rotations).append
    ((Agrees.refl _).append (Agrees.rotation_inverse_ofList once))

/-- A layer that does `plain` to its entries can do `alongZ` to them between
    rotations, if that is so for each entry. -/
theorem agrees_conjugated_entries {α : Type} {entries : List α}
    {rotations : α → List (Qubit × Rotation)} (plain alongZ : α → List Action)
    {layer inner : Layer} (layerActions : layer.actions = entries.flatMap plain)
    (innerActions : inner.actions = entries.flatMap alongZ)
    (once : (entries.flatMap fun entry => (rotations entry).map Prod.fst).Nodup)
    (within : ∀ entry, ∀ action ∈ alongZ entry, action.qubits ⊆ (rotations entry).map Prod.fst)
    (each : ∀ entry, ((rotations entry).map Prod.fst).Nodup →
      Agrees (plain entry)
        (turns (rotations entry) ++ (alongZ entry ++ turns (undone (rotations entry))))) :
    Agrees (actionsAll (conjugated (entries.flatMap rotations) inner)) layer.actions := by
  have keys : ((entries.flatMap rotations).map Prod.fst).Nodup := by
    rw [List.map_flatMap]
    exact once
  have rounds := Agrees.rounds once
    (fun entry member => each entry ((List.nodup_flatMap.mp once).1 entry member)) within
    (fun entry => by simp)
  have undoneAll : undone (entries.flatMap rotations) =
      entries.flatMap fun entry => undone (rotations entry) := by
    rw [undone, List.map_flatMap]
    rfl
  have between := agrees_conjugated keys inner
  rw [undoneAll, innerActions] at between
  rw [layerActions]
  exact between.trans rounds.symm

/-- Couplings with their exchanges along Z between rotations. The rotations back
    are those of the partners. -/
theorem agrees_interactSwap_toZ {couplings : List Coupling}
    (once : (couplings.flatMap Coupling.qubits).Nodup) :
    Agrees
      (actionsAll (between (.ofList (couplings.flatMap couplingRotations))
        (interactSwap (couplings.map Coupling.toZ))
        (.ofList (couplings.flatMap crossedRotations))))
      (interactSwap couplings).actions := by
  have each : ∀ coupling ∈ couplings, Agrees (coupleSwap coupling)
      (turns (couplingRotations coupling) ++ (coupleSwap coupling.toZ ++
        turns (crossedRotations coupling))) := by
    intro coupling member
    have apart := (List.nodup_flatMap.mp once).1 coupling member
    exact Agrees.coupleSwap_toZ (by simpa [Coupling.qubits] using apart)
  have within : ∀ coupling : Coupling, ∀ action ∈ coupleSwap coupling.toZ,
      action.qubits ⊆ (couplingRotations coupling).map Prod.fst := by
    intro coupling action made
    obtain rfl | rfl : action = .couple coupling.toZ ∨
        action = .exchange coupling.toZ.first.id coupling.toZ.second.id := by
      simpa [coupleSwap] using made
    · exact List.Subset.refl _
    · exact List.Subset.refl _
  have rounds := Agrees.rounds once each within fun coupling => List.Subset.refl _
  have inner : (interactSwap (couplings.map Coupling.toZ)).actions =
      couplings.flatMap fun coupling => coupleSwap coupling.toZ := by
    rw [actions, List.flatMap_map]
  refine (agrees_between _ _ _).trans ?_
  rw [inner]
  have outside := (Agrees.rotation_ofList (couplings.flatMap couplingRotations)).append
    ((Agrees.refl (couplings.flatMap fun coupling => coupleSwap coupling.toZ)).append
      (Agrees.rotation_ofList (couplings.flatMap crossedRotations)))
  rw [actions]
  exact outside.trans rounds.symm

/-- The Z-basis form of a layer does what the layer does. -/
theorem agrees_zForm {layer : Layer} (once : layer.NamesOnce) :
    Agrees (actionsAll layer.zForm) layer.actions := by
  fun_cases zForm layer with
  | case1 | case7 => simpa [actionsAll] using Agrees.refl _
  -- An entry along another axis stands between rotations of its own qubits, and no two entries
  -- share a qubit.
  | case2 targets =>
    rw [List.map_eq_flatMap]
    refine agrees_conjugated_entries (fun entry => [.reset entry.1 entry.2])
      (fun entry => [.reset entry.1 .Z]) ?_ ?_ ?_ ?_ ?_
    · rw [actions, List.map_eq_flatMap]
    · rw [actions, QubitMap.mapValues, List.map_map, List.map_eq_flatMap]
      rfl
    · have distinct := targets.nodup_keys
      rw [QubitMap.keys, List.map_eq_flatMap] at distinct
      exact distinct
    · simp [Action.qubits]
    · exact fun entry _ => Agrees.reset_toZ entry.1 entry.2
  | case3 targets =>
    rw [List.map_eq_flatMap]
    refine agrees_conjugated_entries (fun target => [.measure target])
      (fun target => [.measure { target with basis := .Z }]) ?_ ?_ ?_ ?_ ?_
    · rw [actions, List.map_eq_flatMap]
    · rw [actions, List.map_map, List.map_eq_flatMap]
      rfl
    · have distinct : (targets.map fun target => target.id).Nodup := once
      rw [List.map_eq_flatMap] at distinct
      exact distinct
    · simp [Action.qubits]
    · exact fun target _ => Agrees.measure_toZ target
  | case4 couplings =>
    refine agrees_conjugated_entries (fun coupling => [.couple coupling])
      (fun coupling => [.couple coupling.toZ]) ?_ ?_ once ?_ ?_
    · rw [actions, List.map_eq_flatMap]
    · rw [actions, List.map_map, List.map_eq_flatMap]
      rfl
    · simp [Action.qubits, couplingRotations, Coupling.qubits, Coupling.toZ]
    · intro coupling distinct
      exact Agrees.couple_toZ (by simpa [couplingRotations] using distinct)
  | case5 couplings => exact agrees_interactSwap_toZ once
  | case6 pairs =>
    refine agrees_conjugated_entries (fun pair => [.sqrtProduct pair])
      (fun pair => [.sqrtProduct { pair with basis := .Z }]) ?_ ?_ once ?_ ?_
    · rw [actions, List.map_eq_flatMap]
    · rw [actions, List.map_map, List.map_eq_flatMap]
      rfl
    · simp [Action.qubits, sqrtRotations, SqrtPair.qubits]
    · intro pair distinct
      exact Agrees.sqrtProduct_toZ (by simpa [sqrtRotations] using distinct)

end Layer

end StabilizerLayers
