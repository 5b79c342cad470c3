import StabilizerLayers.Layer.Neighbours
import StabilizerLayers.Proofs.Trace.Agreement
import StabilizerLayers.Proofs.Trace.MapEntries

/-!
# Rotations of many qubits

Rotations of one qubit compose, and rotations of different qubits do not meet.
What a list of rotations does is therefore told by one rotation for each qubit,
and rotation layers with the same rotation of each qubit agree, whatever entries
they hold.
-/

namespace StabilizerLayers

namespace Rotation

/-- Undoing two rotations undoes the later one first. -/
theorem inverse_of_followedBy (first second : Rotation) :
    (first.followedBy second).inverse = second.inverse.followedBy first.inverse := by
  rcases first with _ | (_ | _ | _) | _ | _ <;>
    rcases second with _ | (_ | _ | _) | _ | _ <;> rfl

/-- The rotation back from Z gives the axis again. -/
@[simp]
theorem apply_inverse_toZ (basis : Basis) : (toZ basis).inverse.apply .Z = basis := by
  cases basis <;> rfl

/-- After the rotation onto Z, the axis Z is what the given axis was before. -/
@[simp]
theorem apply_inverse_followedBy_toZ (frame : Rotation) (basis : Basis) :
    (frame.followedBy (toZ basis)).inverse.apply .Z = frame.inverse.apply basis := by
  rw [inverse_of_followedBy, apply_followedBy, apply_inverse_toZ]

/-- The identity can be repeated. -/
theorem iterate_identity (times : Nat) : identity.iterate times = identity := by
  induction times with
  | zero => rfl
  | succ times inductionHypothesis => rw [iterate, inductionHypothesis, followedBy_identity]

/-- Six times in a row is not at all. -/
theorem iterate_add_six (rotation : Rotation) (times : Nat) :
    rotation.iterate (times + 6) = rotation.iterate times := by
  have sixfold : ∀ start : Rotation,
      (((((start.followedBy rotation).followedBy rotation).followedBy rotation).followedBy
        rotation).followedBy rotation).followedBy rotation = start := by
    intro start
    rcases start with _ | (_ | _ | _) | _ | _ <;>
      rcases rotation with _ | (_ | _ | _) | _ | _ <;> rfl
  exact sixfold (rotation.iterate times)

/-- Only the remainder modulo six of a repetition counts. -/
theorem pow_eq_iterate (rotation : Rotation) (times : Nat) :
    rotation.pow times = rotation.iterate times := by
  have whole : ∀ rounds rest, rotation.iterate (rest + 6 * rounds) = rotation.iterate rest := by
    intro rounds rest
    induction rounds with
    | zero => rfl
    | succ rounds inductionHypothesis =>
      rw [Nat.mul_succ, ← Nat.add_assoc, iterate_add_six, inductionHypothesis]
  rw [pow, ← whole (times / 6) (times % 6), Nat.mod_add_div]

end Rotation

namespace RotationLayer

/-- Rotations of distinct qubits rotate each qubit by its own. -/
theorem get_appendAll (layer : RotationLayer) {entries : List (Qubit × Rotation)}
    (distinct : (entries.map Prod.fst).Nodup) (id : Qubit) :
    (layer.appendAll entries).get id =
      (layer.get id).followedBy ((QubitMap.find? id entries).getD .identity) := by
  induction entries generalizing layer with
  | nil => simp [appendAll, QubitMap.find?]
  | cons head rest inductionHypothesis =>
    obtain ⟨key, rotation⟩ := head
    obtain ⟨fresh, later⟩ := List.nodup_cons.mp distinct
    rw [appendAll, inductionHypothesis _ later, get_append]
    by_cases same : id = key
    · subst same
      have absent : QubitMap.find? id rest = none := QubitMap.find?_eq_none fresh
      simp [QubitMap.find?, absent]
    · simp [QubitMap.find?, same]

/-- A layer of distinct qubits rotates each qubit by its own entry. -/
theorem get_ofList {entries : List (Qubit × Rotation)}
    (distinct : (entries.map Prod.fst).Nodup) (id : Qubit) :
    (ofList entries).get id = (QubitMap.find? id entries).getD .identity := by
  rw [ofList, get_appendAll _ distinct]
  simp [get, empty, QubitMap.empty, QubitMap.get?, QubitMap.find?]

/-- Rotating by the entries of a layer rotates every qubit by that layer. -/
theorem get_appendAll_entries (layer next : RotationLayer) (id : Qubit) :
    (layer.appendAll next.rotations.entries).get id =
      (layer.get id).followedBy (next.get id) :=
  layer.get_appendAll next.rotations.nodup_keys id

/-- Layers compose qubit by qubit. -/
@[simp]
theorem get_followedBy (layer next : RotationLayer) (id : Qubit) :
    (layer.followedBy next).get id = (layer.get id).followedBy (next.get id) := by
  rw [followedBy, get_withoutIdentities, get_appendAll_entries]

/-- A layer is repeated qubit by qubit. -/
@[simp]
theorem get_pow (layer : RotationLayer) (times : Nat) (id : Qubit) :
    (layer.pow times).get id = (layer.get id).iterate times := by
  rw [pow, get_withoutIdentities]
  simp only [get, QubitMap.get?_mapValues]
  cases layer.rotations.get? id with
  | none => simp [Rotation.iterate_identity]
  | some rotation => simp [Rotation.pow_eq_iterate]

/-- A layer without some qubits leaves exactly those in place. -/
@[simp]
theorem get_without (layer : RotationLayer) (ids : List Qubit) (id : Qubit) :
    (layer.without ids).get id = if ids.contains id then .identity else layer.get id := by
  simp only [get, without, QubitMap.without, QubitMap.get?_filter]
  cases layer.rotations.get? id with
  | none => simp
  | some rotation =>
    cases ids.contains id <;> simp [Option.filter]

/-- A layer that really rotates no qubit rotates every qubit by the identity. -/
theorem get_of_isVacuous {layer : RotationLayer} (vacuous : layer.isVacuous = true)
    (id : Qubit) : layer.get id = .identity := by
  rw [get]
  cases found : layer.rotations.get? id with
  | none => rfl
  | some rotation =>
    have listed : rotation ∈ layer.rotations.values :=
      List.mem_map_of_mem (f := Prod.snd) (QubitMap.mem_of_find? found)
    exact (Rotation.isIdentity_iff rotation).mp (List.all_eq_true.mp vacuous rotation listed)

/-- A layer rotates the qubits that it does not touch by the identity. -/
theorem get_of_not_mem_touched {layer : RotationLayer} {id : Qubit} (apart : id ∉ layer.touched) :
    layer.get id = .identity := by
  rw [get]
  cases found : layer.rotations.get? id with
  | none => rfl
  | some rotation =>
    by_contra turning
    refine apart (QubitMap.mem_keysWhere.mpr ⟨rotation, QubitMap.mem_of_find? found, ?_⟩)
    simpa using turning

/-- Rotations of distinct qubits that are not rotated yet are set. -/
theorem rotations_appendAll (layer : RotationLayer) {added : List (Qubit × Rotation)}
    (distinct : (layer.rotations.keys ++ added.map Prod.fst).Nodup) :
    (layer.appendAll added).rotations = layer.rotations.insertAll added := by
  induction added generalizing layer with
  | nil => rfl
  | cons head rest inductionHypothesis =>
    obtain ⟨id, rotation⟩ := head
    have arranged : (id :: (layer.rotations.keys ++ rest.map Prod.fst)).Nodup :=
      List.perm_middle.nodup_iff.mp distinct
    have fresh : id ∉ layer.rotations.keys := fun member =>
      (List.nodup_cons.mp arranged).1 (List.mem_append_left _ member)
    have set : (layer.append id rotation).rotations = layer.rotations.insert id rotation :=
      QubitMap.upsert_of_fresh fresh (Rotation.identity_followedBy rotation)
    have grown : (layer.append id rotation).rotations.keys.Perm (id :: layer.rotations.keys) :=
      (QubitMap.upsertEntries_perm _ fresh).map Prod.fst
    rw [appendAll, QubitMap.insertAll, ← set]
    exact inductionHypothesis _ ((grown.append_right _).nodup_iff.mpr arranged)

/-- The layer of rotations of distinct qubits. -/
theorem ofList_eq {entries : List (Qubit × Rotation)} (distinct : (entries.map Prod.fst).Nodup) :
    ofList entries = ⟨.ofList entries⟩ := by
  have fresh : (empty.rotations.keys ++ entries.map Prod.fst).Nodup := by
    simpa [empty, QubitMap.keys, QubitMap.empty] using distinct
  exact congrArg RotationLayer.mk (empty.rotations_appendAll fresh)

/-- Rotations of distinct qubits, none of them idle, one after the other. -/
theorem followedBy_ofList {first second : List (Qubit × Rotation)}
    (distinct : ((first ++ second).map Prod.fst).Nodup)
    (turning : ∀ entry ∈ first ++ second, entry.2 ≠ .identity) :
    (ofList first).followedBy (ofList second) = ofList (first ++ second) := by
  have apart := distinct
  rw [List.map_append] at apart
  have joint := rotations_appendAll ⟨.ofList first⟩ (QubitMap.nodup_keys_append distinct)
  rw [QubitMap.insertAll_ofList distinct] at joint
  rw [ofList_eq apart.of_append_left, ofList_eq apart.of_append_right, ofList_eq distinct,
    followedBy, withoutIdentities, joint]
  refine congrArg RotationLayer.mk (QubitMap.ext_entries (List.filter_eq_self.mpr ?_))
  intro entry member
  have listed := (QubitMap.ofList_perm distinct).mem_iff.mp member
  simpa using turning entry listed

end RotationLayer

/-! ### Where rotations lead -/

namespace Placement

/-- Rotates every qubit by its own rotation. -/
def turned (placement : Placement) (turn : Qubit → Rotation) : Placement :=
  { placement with frame := fun id => (placement.frame id).followedBy (turn id) }

/-- Rotations one after the other come to one rotation of each qubit. -/
theorem after_turns_turned (placement : Placement) (layer : RotationLayer)
    (entries : List (Qubit × Rotation)) :
    (placement.turned layer.get).after (turns entries) =
      placement.turned (layer.appendAll entries).get := by
  induction entries generalizing layer with
  | nil => rfl
  | cons entry rest inductionHypothesis =>
    obtain ⟨id, rotation⟩ := entry
    rw [RotationLayer.appendAll, ← inductionHypothesis]
    have step : (placement.turned layer.get).rotate id rotation =
        placement.turned (layer.append id rotation).get := by
      refine ext_cell fun tested => ?_
      by_cases same : tested = id
      · subst same
        simp [rotate, withFrame, turned, cell, RotationLayer.get_append,
          Rotation.followedBy_assoc]
      · simp [rotate, withFrame, turned, cell, RotationLayer.get_append, same]
    exact congrArg (Placement.after · (turns rest)) step

/-- Rotations leave no events. -/
@[simp]
theorem events_turns (placement : Placement) (entries : List (Qubit × Rotation)) :
    placement.events (turns entries) = [] := by
  induction entries generalizing placement with
  | nil => rfl
  | cons entry rest inductionHypothesis => exact inductionHypothesis _

/-- Rotations come to the rotation of each qubit in their layer. -/
theorem after_turns (placement : Placement) (entries : List (Qubit × Rotation)) :
    placement.after (turns entries) = placement.turned (RotationLayer.ofList entries).get := by
  have unturned : placement.turned RotationLayer.empty.get = placement :=
    ext_cell fun id => by
      simp [turned, cell, RotationLayer.get, RotationLayer.empty, QubitMap.empty,
        QubitMap.get?, QubitMap.find?]
  have result := placement.after_turns_turned .empty entries
  rwa [unturned] at result

/-- A layer of rotations turns each qubit by its rotation. -/
theorem after_rotation (placement : Placement) (layer : RotationLayer) :
    placement.after (Layer.rotation layer).actions = placement.turned layer.get := by
  have same : (RotationLayer.ofList layer.rotations.entries).get = layer.get := by
    funext id
    exact RotationLayer.get_ofList layer.rotations.nodup_keys id
  rw [Layer.actions, after_turns, same]

end Placement

/-- Rotations of the entries of a list, in one round. -/
theorem turns_flatMap {α : Type} (rotations : α → List (Qubit × Rotation)) (entries : List α) :
    turns (entries.flatMap rotations) = entries.flatMap fun entry => turns (rotations entry) := by
  rw [turns, List.map_flatMap]
  rfl

/-- Rotations act on their own qubits. -/
theorem qubits_turns_subset {rotations : List (Qubit × Rotation)} {action : Action}
    (made : action ∈ turns rotations) : action.qubits ⊆ rotations.map Prod.fst := by
  obtain ⟨entry, listed, rfl⟩ := List.mem_map.mp made
  intro id member
  rw [Action.qubits] at member
  split at member
  · simp at member
  · exact (List.mem_singleton.mp member) ▸ List.mem_map_of_mem listed

/-- Rotations write and read no records. -/
theorem isRecord_of_mem_turns {rotations : List (Qubit × Rotation)} {action : Action}
    (made : action ∈ turns rotations) : action.isRecord = false := by
  obtain ⟨entry, -, rfl⟩ := List.mem_map.mp made
  rfl

/-- Rotations make no records. -/
@[simp]
theorem records_turns (entries : List (Qubit × Rotation)) : records (turns entries) = [] := by
  rw [records, turns, List.filterMap_map]
  exact List.filterMap_eq_nil_iff.mpr fun _ _ => rfl

namespace Agrees

/-- Rotations that turn each qubit alike agree. -/
theorem of_turns {first second : List (Qubit × Rotation)}
    (same : ∀ placement : Placement,
      placement.after (turns first) = placement.after (turns second)) :
    Agrees (turns first) (turns second) :=
  ⟨same, fun placement => by simp only [Placement.events_turns]; exact .refl _, by simp⟩

/-- Layers of rotations with the same rotation of each qubit agree. -/
theorem rotation {first second : RotationLayer} (same : ∀ id, first.get id = second.get id) :
    Agrees (Layer.rotation first).actions (Layer.rotation second).actions := by
  rw [Layer.actions, Layer.actions]
  refine of_turns fun placement => ?_
  have firstTurned := placement.after_rotation first
  have secondTurned := placement.after_rotation second
  rw [Layer.actions] at firstTurned secondTurned
  rw [firstTurned, secondTurned, funext same]

/-- A layer built from rotations agrees with them. -/
theorem rotation_ofList (entries : List (Qubit × Rotation)) :
    Agrees (Layer.rotation (.ofList entries)).actions (turns entries) := by
  rw [Layer.actions]
  refine of_turns fun placement => ?_
  have turned := placement.after_rotation (.ofList entries)
  rw [Layer.actions] at turned
  rw [turned, Placement.after_turns]

/-- A layer that really rotates nothing does nothing. -/
theorem rotation_of_isVacuous {layer : RotationLayer} (vacuous : layer.isVacuous = true) :
    Agrees (Layer.rotation layer).actions [] := by
  have same : Agrees (Layer.rotation layer).actions (Layer.rotation .empty).actions :=
    rotation fun id => by
      rw [RotationLayer.get_of_isVacuous vacuous, RotationLayer.get_of_isVacuous rfl]
  simpa [Layer.actions, turns, RotationLayer.empty, QubitMap.empty] using same

/-- Two layers of rotations compose. -/
theorem rotation_followedBy (layer next : RotationLayer) :
    Agrees ((Layer.rotation layer).actions ++ (Layer.rotation next).actions)
      (Layer.rotation (layer.followedBy next)).actions := by
  have joined : (Layer.rotation layer).actions ++ (Layer.rotation next).actions =
      turns (layer.rotations.entries ++ next.rotations.entries) := by
    simp [Layer.actions, turns]
  have single : (Layer.rotation (layer.followedBy next)).actions =
      turns (layer.followedBy next).rotations.entries := by rw [Layer.actions]
  rw [joined, single]
  refine of_turns fun placement => ?_
  rw [← joined, ← single, Placement.after_append, Placement.after_rotation,
    Placement.after_rotation, Placement.after_rotation]
  refine Placement.ext_cell fun id => ?_
  simp [Placement.turned, Placement.cell, Rotation.followedBy_assoc]

/-- A layer of rotations undoes its inverse. -/
theorem rotation_inverse (layer : RotationLayer) :
    Agrees ((Layer.rotation layer.inverse).actions ++ (Layer.rotation layer).actions) [] := by
  refine (rotation_followedBy layer.inverse layer).trans ?_
  have same : Agrees (Layer.rotation (layer.inverse.followedBy layer)).actions
      (Layer.rotation .empty).actions :=
    rotation fun id => by
      rw [RotationLayer.get_followedBy, RotationLayer.get_inverse, Rotation.inverse_followedBy,
        RotationLayer.get_of_isVacuous rfl]
  simpa [Layer.actions, turns, RotationLayer.empty, QubitMap.empty] using same

/-- A layer of rotations a number of times in a row is one layer. -/
theorem rotation_pow (layer : RotationLayer) (times : Nat) :
    Agrees (StabilizerLayers.repeated times (Layer.rotation layer).actions)
      (Layer.rotation (layer.pow times)).actions := by
  induction times with
  | zero =>
    refine (rotation_of_isVacuous (List.all_eq_true.mpr fun rotation member => ?_)).symm
    obtain ⟨entry, listed, rfl⟩ := List.mem_map.mp member
    obtain ⟨held, kept⟩ := List.mem_filter.mp listed
    obtain ⟨original, -, rfl⟩ := List.mem_map.mp held
    simp [Rotation.pow, Rotation.iterate, Rotation.isIdentity] at kept
  | succ times inductionHypothesis =>
    have last : StabilizerLayers.repeated (times + 1) (Layer.rotation layer).actions =
        StabilizerLayers.repeated times (Layer.rotation layer).actions ++
          (Layer.rotation layer).actions := by
      simp [StabilizerLayers.repeated, List.replicate_succ']
    rw [last]
    refine (inductionHypothesis.append (.refl _)).trans ?_
    refine (rotation_followedBy _ _).trans (rotation fun id => ?_)
    rw [RotationLayer.get_followedBy, RotationLayer.get_pow, RotationLayer.get_pow,
      Rotation.iterate]

/-- Dropping idle entries, or an idle layer as a whole, changes nothing. -/
theorem ofRotations (rotations : RotationLayer) :
    Agrees (Layer.actionsAll (Layer.ofRotations rotations))
      (Layer.rotation rotations).actions := by
  have kept : Agrees (Layer.rotation rotations.withoutIdentities).actions
      (Layer.rotation rotations).actions :=
    rotation fun id => RotationLayer.get_withoutIdentities rotations id
  rw [Layer.ofRotations]
  split
  · rename_i vacuous
    exact (rotation_of_isVacuous vacuous).symm.trans kept
  · simpa [Layer.actionsAll] using kept

end Agrees

end StabilizerLayers
