import StabilizerLayers.Proofs.Schedule.Forms
import StabilizerLayers.Proofs.Trace.Laws
import StabilizerLayers.Proofs.Trace.Products
import StabilizerLayers.Schedule.Levels

/-!
# Layers that share a slot

Two layers of one kind become one layer if they touch distinct qubits. Entries
are kept in order, except for resets, which are listed by qubit; resets of
distinct qubits change places.
-/

namespace StabilizerLayers

namespace Layer

/-- What layers of one kind come to if they fit together. -/
theorem mergeDisjoint_eq_some {α : Type} {qubits : List α → List Qubit} {build : List α → Layer}
    {first second : List α} {both : Layer}
    (merged : mergeDisjoint qubits build first second = some both) :
    (∀ id ∈ qubits first, id ∉ qubits second) ∧ both = build (first ++ second) := by
  rw [mergeDisjoint] at merged
  split at merged
  · rename_i apart
    exact ⟨disjoint_eq_true_iff.mp apart, (Option.some.inj merged).symm⟩
  · cases merged

/-- What two layers in one slot come to, by kind: the layers that `absorb?` takes and the
    one that it gives. -/
inductive Absorbs : (first second both : Layer) → Prop where
  | reset {first second : QubitMap Basis} (apart : second.keys.any first.contains = false) :
    Absorbs (.reset first) (.reset second) (.reset (first.insertAll second.entries))
  | measure {first second : List Measurement}
    (apart : ∀ id ∈ (Layer.measure first).touched, id ∉ (Layer.measure second).touched) :
    Absorbs (.measure first) (.measure second) (.measure (first ++ second))
  | interact {first second : List Coupling}
    (apart : ∀ id ∈ (Layer.interact first).touched, id ∉ (Layer.interact second).touched) :
    Absorbs (.interact first) (.interact second) (.interact (first ++ second))
  | interactSwap {first second : List Coupling}
    (apart : ∀ id ∈ (Layer.interactSwap first).touched, id ∉ (Layer.interactSwap second).touched) :
    Absorbs (.interactSwap first) (.interactSwap second) (.interactSwap (first ++ second))
  | swap {first second : List (Qubit × Qubit)}
    (apart : ∀ id ∈ (Layer.swap first).touched, id ∉ (Layer.swap second).touched) :
    Absorbs (.swap first) (.swap second) (.swap (first ++ second))
  | iswap {first second : List (Qubit × Qubit)}
    (apart : ∀ id ∈ (Layer.iswap first).touched, id ∉ (Layer.iswap second).touched) :
    Absorbs (.iswap first) (.iswap second) (.iswap (first ++ second))
  | sqrtProduct {first second : List SqrtPair}
    (apart : ∀ id ∈ (Layer.sqrtProduct first).touched, id ∉ (Layer.sqrtProduct second).touched) :
    Absorbs (.sqrtProduct first) (.sqrtProduct second) (.sqrtProduct (first ++ second))
  | feedback {first second : List Feedback}
    (apart : ∀ id ∈ (Layer.feedback first).touched, id ∉ (Layer.feedback second).touched) :
    Absorbs (.feedback first) (.feedback second) (.feedback (first ++ second))
  | rotation (first second : RotationLayer) :
    Absorbs (.rotation first) (.rotation second) (.rotation (first.followedBy second))
  | product {first second : List Target}
    (apart : ∀ id ∈ (Layer.product first).touched, id ∉ (Layer.product second).touched) :
    Absorbs (.product first) (.product second) (.product (first ++ second))
  | parity (first second : List Instruction) :
    Absorbs (.parity first) (.parity second) (.parity (first ++ second))
  | qubitCoords (first second : QubitMap (List Float)) :
    Absorbs (.qubitCoords first) (.qubitCoords second)
      (.qubitCoords (first.insertAll second.entries))
  | shiftCoords (first second : List Float) :
    Absorbs (.shiftCoords first) (.shiftCoords second) (.shiftCoords (addShift first second))

/-- Loops share no slot. -/
theorem Absorbs.flat {first second both : Layer} (absorbs : Absorbs first second both) :
    first.isLoop = false ∧ second.isLoop = false ∧ both.isLoop = false := by
  cases absorbs <;> exact ⟨rfl, rfl, rfl⟩

/-- Two layers that share a slot are of one kind, and both of them are kept. -/
theorem absorbs_of_absorb? {first second both : Layer}
    (found : first.absorb? second = some both) : Absorbs first second both := by
  revert found
  fun_cases absorb? first second with
  | case1 | case15 =>
    intro found
    cases found
  | case2 first second free =>
    intro found
    obtain rfl := Option.some.inj found
    exact .reset (Bool.eq_false_iff.mpr free)
  | case10 | case12 | case13 | case14 =>
    intro found
    obtain rfl := Option.some.inj found
    constructor
  | case3 | case4 | case5 | case6 | case7 | case8 | case9 | case11 =>
    intro found
    obtain ⟨apart, rfl⟩ := mergeDisjoint_eq_some found
    constructor
    exact apart

/-- Resets of distinct qubits can stand in any order. -/
theorem agrees_resets {entries sorted : List (Qubit × Basis)} (perm : entries.Perm sorted)
    (distinct : (entries.map Prod.fst).Nodup) :
    Agrees (entries.map fun (id, basis) => .reset id basis)
      (sorted.map fun (id, basis) => .reset id basis) := by
  rw [List.map_eq_flatMap, List.map_eq_flatMap]
  have once : (entries.flatMap fun entry => [entry.1]).Nodup := by
    rw [← List.map_eq_flatMap]
    exact distinct
  refine Agrees.flatMap_of_perm perm (pairwise_independent once ?_ ?_ ?_)
  · intro entry action member
    obtain rfl := List.mem_singleton.mp member
    simp [Action.qubits]
  · intro entry action member
    obtain rfl := List.mem_singleton.mp member
    simp [Action.qubits]
  · intro entry other action member next _
    obtain rfl := List.mem_singleton.mp member
    exact .inl rfl

/-- Resets of distinct qubits are resets of all of them. -/
theorem agrees_reset_reset {first second : QubitMap Basis}
    (apart : second.keys.any first.contains = false) :
    Agrees (reset (first.insertAll second.entries)).actions
      ((reset first).actions ++ (reset second).actions) := by
  have separate : ∀ id ∈ first.keys, id ∉ second.keys := by
    intro id held member
    have none := List.any_eq_false.mp apart id member
    exact none (QubitMap.contains_eq_true_iff.mpr held)
  have distinct : (first.keys ++ second.keys).Nodup :=
    first.nodup_keys.append second.nodup_keys separate
  have perm := first.insertAll_perm distinct
  have same := agrees_resets perm (first.insertAll second.entries).nodup_keys
  simpa [actions] using same

/-- Layers that share a slot do what they do one after the other. -/
theorem agrees_absorb? {layer next both : Layer} (absorbed : layer.absorb? next = some both)
    (here : layer.HoldsProducts) (there : next.HoldsProducts) :
    Agrees both.actions (layer.actions ++ next.actions) := by
  cases absorbs_of_absorb? absorbed with
  | reset apart => exact agrees_reset_reset apart
  | rotation first second => exact (Agrees.rotation_followedBy first second).symm
  | @product first second _ =>
    have cut : products (first ++ second) = products first ++ products second :=
      FormsProducts.products_append here there
    simpa [actions, cut] using Agrees.refl _
  | measure _ | interact _ | interactSwap _ | swap _ | iswap _ | sqrtProduct _ | feedback _
  | parity _ _ | qubitCoords _ _ | shiftCoords _ _ => simpa [actions] using Agrees.refl _

/-- Layers that are merged where they can be do what they did before. -/
theorem agrees_merged {layer next : Layer} (here : layer.HoldsProducts)
    (there : next.HoldsProducts) :
    Agrees (actionsAll (layer.merged next)) (layer.actions ++ next.actions) := by
  rw [merged]
  split
  · rename_i both absorbed
    simpa [actionsAll] using agrees_absorb? absorbed here there
  · simpa [actionsAll] using Agrees.refl _

end Layer

end StabilizerLayers
