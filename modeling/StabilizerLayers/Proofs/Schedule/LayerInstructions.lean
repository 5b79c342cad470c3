import StabilizerLayers.Proofs.Schedule.Sweeping
import StabilizerLayers.Schedule.Writing

/-!
# Instructions of a layer

The instructions of a layer do what the layer does. Where they stand in another
order than the entries of the layer, the entries act on distinct qubits.
-/

namespace StabilizerLayers

/-! ### Groups -/

/-- Entries grouped by their labels are the entries. -/
theorem perm_groups {α κ : Type} [DecidableEq κ] (label : α → κ) {labels : List κ}
    (distinct : labels.Nodup) {entries : List α}
    (covered : ∀ entry ∈ entries, label entry ∈ labels) :
    (labels.flatMap fun group => entries.filter fun entry => label entry == group).Perm entries := by
  induction labels generalizing entries with
  | nil =>
    obtain rfl : entries = [] := List.eq_nil_iff_forall_not_mem.mpr fun entry member => by
      simpa using covered entry member
    simp
  | cons group rest inductionHypothesis =>
    obtain ⟨fresh, later⟩ := List.nodup_cons.mp distinct
    let others := entries.filter fun entry => !(label entry == group)
    have remaining : ∀ entry ∈ others, label entry ∈ rest := by
      intro entry member
      obtain ⟨listed, different⟩ := List.mem_filter.mp member
      have apart : label entry ≠ group := by simpa using different
      exact (List.mem_cons.mp (covered entry listed)).resolve_left apart
    have grouped := inductionHypothesis later remaining
    have same : (rest.flatMap fun other => others.filter fun entry => label entry == other) =
        rest.flatMap fun other => entries.filter fun entry => label entry == other := by
      refine List.flatMap_congr fun other member => ?_
      rw [List.filter_filter]
      refine List.filter_congr fun entry _ => ?_
      by_cases here : label entry = other
      · have apart : label entry ≠ group := fun equal => fresh ((equal ▸ here) ▸ member)
        simp [here, here ▸ apart]
      · simp [here]
    rw [same] at grouped
    rw [List.flatMap_cons]
    exact (grouped.append_left _).trans
      (List.filter_append_perm (fun entry => label entry == group) entries)

/-- Instructions of groups, with those of empty groups left out. -/
theorem flatMap_filterMap_actions {κ : Type} (labels : List κ) (make : κ → Option Instruction) :
    (labels.filterMap make).flatMap Instruction.actions =
      labels.flatMap fun label => (make label).toList.flatMap Instruction.actions := by
  rw [List.filterMap_eq_flatMap_toList, List.flatMap_assoc]

namespace Instruction

/-- Resets of plain qubits. -/
theorem actions_onQubits_reset (basis : Basis) (ids : List Qubit) :
    (onQubits (.reset basis) ids).actions = ids.map fun id => .reset id basis := by
  rw [List.map_eq_flatMap]
  exact List.flatMap_map ..

/-- Rotations of plain qubits. -/
theorem actions_onQubits_rotation {rotation : Rotation} {gate : Gate}
    (performs : rotation.gate? = some gate) (ids : List Qubit) :
    (onQubits gate ids).actions = ids.map fun id => .rotate id rotation := by
  rw [List.map_eq_flatMap]
  cases rotation with
  | identity => cases performs
  | exchange _ | cycleXYZ | cycleZYX =>
    obtain rfl := Option.some.inj performs
    exact List.flatMap_map ..

end Instruction

namespace Layer

/-- Keys of the entries with a value. -/
theorem map_keysWhere {α : Type} [DecidableEq α] {β : Type} (map : QubitMap α) (value : α)
    (make : Qubit → α → β) :
    ((map.keysWhere fun held => held == value).map fun id => make id value) =
      (map.entries.filter fun entry => entry.2 == value).map fun entry =>
        make entry.1 entry.2 := by
  rw [QubitMap.keysWhere, QubitMap.keys, QubitMap.filter, List.map_map]
  refine List.map_congr_left fun entry member => ?_
  obtain ⟨-, same⟩ := List.mem_filter.mp member
  simp [show entry.2 = value by simpa using same]

/-- Entries by their values are the entries. -/
theorem perm_entriesByValue {α : Type} [DecidableEq α] (map : QubitMap α) {labels : List α}
    (distinct : labels.Nodup) (covered : ∀ entry ∈ map.entries, entry.2 ∈ labels) :
    (labels.flatMap fun label =>
      (map.keysWhere fun held => held == label).map fun id => (id, label)).Perm map.entries := by
  have grouped := perm_groups Prod.snd distinct covered
  rw [← List.map_id (labels.flatMap _), List.map_flatMap] at grouped
  rwa [List.flatMap_congr fun label _ => map_keysWhere map label Prod.mk]

/-- Resets in writing order. -/
theorem agrees_resetInstructions (targets : QubitMap Basis) :
    Agrees ((resetInstructions targets).flatMap Instruction.actions) (reset targets).actions := by
  have written : (resetInstructions targets).flatMap Instruction.actions =
      Basis.byRank.flatMap fun basis =>
        (targets.entries.filter fun entry => entry.2 == basis).map fun entry =>
          .reset entry.1 entry.2 := by
    rw [resetInstructions, flatMap_filterMap_actions]
    refine List.flatMap_congr fun basis _ => ?_
    rw [← map_keysWhere targets basis Action.reset]
    split
    · rename_i none
      simp [none]
    · simp [Instruction.actions_onQubits_reset]
  have grouped : (Basis.byRank.flatMap fun basis =>
      targets.entries.filter fun entry => entry.2 == basis).Perm targets.entries :=
    perm_groups Prod.snd (by decide) fun entry _ => by
      cases entry.2 <;> decide
  rw [written, ← List.map_flatMap]
  exact agrees_resets grouped ((grouped.map Prod.fst).nodup_iff.mpr targets.nodup_keys)

/-- Rotations of distinct qubits can stand in any order. -/
theorem agrees_turns_of_perm {entries sorted : List (Qubit × Rotation)}
    (perm : entries.Perm sorted) (distinct : (entries.map Prod.fst).Nodup) :
    Agrees (turns entries) (turns sorted) := by
  have single : ∀ entries : List (Qubit × Rotation),
      turns entries = entries.flatMap fun entry => turns [entry] := fun entries => by
    rw [turns, List.map_eq_flatMap]
    rfl
  have once : (entries.flatMap fun entry => [entry.1]).Nodup := by
    rw [← List.map_eq_flatMap]
    exact distinct
  rw [single entries, single sorted]
  exact Agrees.flatMap_of_perm perm (pairwise_independent once
    (fun _ _ made => qubits_turns_subset made) (fun _ _ made => qubits_turns_subset made)
    fun _ _ _ made _ _ => .inl (isRecord_of_mem_turns made))

/-- Idle rotations do nothing. -/
theorem agrees_turns_identity (entries : List (Qubit × Rotation)) :
    Agrees (turns (entries.filter fun entry => entry.2 == .identity)) [] := by
  induction entries with
  | nil => exact .refl _
  | cons entry rest inductionHypothesis =>
    by_cases idle : entry.2 = .identity
    · have gone := (Agrees.rotate_identity entry.1).append inductionHypothesis
      simpa [idle, turns] using gone
    · simpa [idle] using inductionHypothesis

/-- What the instructions of rotations come to, rotation by rotation. -/
theorem flatMap_rotationInstructions {β : Type} {rotations : RotationLayer}
    {told : Instruction → List β} {group : Rotation → List β}
    (each : ∀ turn gate, turn.gate? = some gate →
      told (.onQubits gate (rotations.rotations.keysWhere fun held => held == turn)) = group turn)
    (none : ∀ turn, (rotations.rotations.keysWhere fun held => held == turn) = [] →
      group turn = []) :
    rotations.instructions.flatMap told = Rotation.all.tail.flatMap group := by
  have unwritten : ∀ parts : Rotation → List β, parts .identity = [] →
      Rotation.all.flatMap parts = Rotation.all.tail.flatMap parts := fun parts idle => by
    simp [Rotation.all, idle]
  rw [RotationLayer.instructions, List.filterMap_eq_flatMap_toList, List.flatMap_assoc,
    unwritten _ rfl]
  refine List.flatMap_congr fun turn member => ?_
  obtain ⟨gate, performs⟩ : ∃ gate, turn.gate? = some gate := by
    revert member
    rcases turn with _ | _ | _ | _ <;> simp [Rotation.all, Rotation.gate?]
  rw [performs, Option.bind_some]
  split
  · rename_i empty
    exact (none turn empty).symm
  · simpa using each turn gate performs

/-- Rotations in writing order. -/
theorem agrees_rotationInstructions (rotations : RotationLayer) :
    Agrees (rotations.instructions.flatMap Instruction.actions) (rotation rotations).actions := by
  let group : Rotation → List (Qubit × Rotation) := fun turn =>
    rotations.rotations.entries.filter fun entry => entry.2 == turn
  have written : rotations.instructions.flatMap Instruction.actions =
      turns (Rotation.all.tail.flatMap group) := by
    rw [turns_flatMap]
    refine flatMap_rotationInstructions (fun turn gate performs => ?_) fun turn none => ?_
    · rw [turns, ← map_keysWhere rotations.rotations turn Action.rotate]
      exact Instruction.actions_onQubits_rotation performs _
    · rw [turns, ← map_keysWhere rotations.rotations turn Action.rotate, none]
      rfl
  have grouped : (Rotation.all.flatMap group).Perm rotations.rotations.entries :=
    perm_groups Prod.snd (by decide) fun entry _ => by
      rcases entry.2 with _ | (_ | _ | _) | _ | _ <;> decide
  have ordered := agrees_turns_of_perm grouped
    ((grouped.map Prod.fst).nodup_iff.mpr rotations.rotations.nodup_keys)
  have idle := (agrees_turns_identity rotations.rotations.entries).append
    (.refl (turns (Rotation.all.tail.flatMap group)))
  have parts : turns (Rotation.all.flatMap group) =
      turns (group .identity) ++ turns (Rotation.all.tail.flatMap group) := List.map_append
  rw [written]
  rw [parts] at ordered
  exact idle.symm.trans ordered

end Layer

/-! ### Couplings -/

namespace Coupling

/-- A coupling with its operands in writing order does the same. -/
theorem agrees_canonical (coupling : Coupling) :
    Agrees [.couple coupling.canonical] [.couple coupling] := by
  rw [canonical]
  split
  · exact Agrees.couple_reversed coupling
  · exact .refl _

/-- Writing order of operands changes no qubits. -/
theorem perm_qubits_canonical (coupling : Coupling) :
    coupling.canonical.qubits.Perm coupling.qubits := by
  rw [canonical]
  split
  · exact .swap _ _ _
  · exact .refl _

/-- An exchange after a coupling in writing order does the same. -/
theorem agrees_coupleSwap_canonical (coupling : Coupling) :
    Agrees (Layer.coupleSwap coupling.canonical) (Layer.coupleSwap coupling) := by
  rw [canonical]
  split
  · exact (Agrees.couple_reversed coupling).append
      (Agrees.exchange_comm coupling.first.id coupling.second.id)
  · exact .refl _

/-- Couplings in writing order name the qubits that they did. -/
theorem perm_qubits_sorted (couplings : List Coupling) :
    ((sorted couplings).flatMap qubits).Perm (couplings.flatMap qubits) := by
  refine ((sortByKey_perm key (couplings.map canonical)).flatMap_right qubits).trans ?_
  rw [List.flatMap_map]
  exact List.Perm.flatMap_left _ fun coupling _ => coupling.perm_qubits_canonical

section

variable {couplings : List Coupling} (once : (couplings.flatMap qubits).Nodup)

include once

/-- Couplings in writing order name each qubit once. -/
theorem nodup_sorted : ((sorted couplings).flatMap qubits).Nodup :=
  (perm_qubits_sorted couplings).nodup_iff.mpr once

/-- What is done to couplings in writing order is what is done to them, if it is
    for each and stays on its qubits. -/
theorem agrees_sorted {actions : Coupling → List Action}
    (each : ∀ coupling, Agrees (actions coupling.canonical) (actions coupling))
    (within : ∀ coupling, ∀ action ∈ actions coupling, action.qubits ⊆ coupling.qubits)
    (silent : ∀ coupling, ∀ action ∈ actions coupling, action.isRecord = false) :
    Agrees ((sorted couplings).flatMap actions) (couplings.flatMap actions) := by
  have ordered := Agrees.flatMap_of_perm (sortByKey_perm key (couplings.map canonical))
    (pairwise_independent (nodup_sorted once) within within
      fun coupling _ action made _ _ => .inl (silent coupling action made))
  refine ordered.trans ?_
  rw [List.flatMap_map]
  exact Agrees.flatMap fun coupling _ => each coupling

end

/-- The instructions of couplings do what the couplings do. -/
theorem agrees_instructions {couplings : List Coupling}
    (once : (couplings.flatMap qubits).Nodup) :
    Agrees ((instructions couplings).flatMap Instruction.actions)
      (Layer.interact couplings).actions := by
  rw [instructions, List.flatMap_map, Layer.actions, List.map_eq_flatMap]
  exact agrees_sorted once agrees_canonical qubits_couple_subset fun _ _ made => by
    rw [List.mem_singleton.mp made]
    rfl

/-- A coupling with its exchange stays on its qubits. -/
theorem qubits_coupleSwap_subset (coupling : Coupling) :
    ∀ action ∈ Layer.coupleSwap coupling, action.qubits ⊆ coupling.qubits := by
  intro action made
  obtain rfl | rfl : action = .couple coupling ∨
      action = .exchange coupling.first.id coupling.second.id := by
    simpa [Layer.coupleSwap] using made
  · exact List.Subset.refl _
  · exact List.Subset.refl _

/-- A coupling with its exchange is none of the records. -/
theorem isRecord_of_mem_coupleSwap (coupling : Coupling) :
    ∀ action ∈ Layer.coupleSwap coupling, action.isRecord = false := by
  simp [Layer.coupleSwap, Action.isRecord]

/-- A gate that couples and exchanges does so. -/
theorem actions_swapGate? {coupling : Coupling} {gate : Gate}
    (has : coupling.swapGate? = some gate) :
    (coupling.instruction gate).actions = Layer.coupleSwap coupling := by
  obtain ⟨⟨id, first⟩, ⟨other, second⟩⟩ := coupling
  cases first <;> cases second <;> simp only [swapGate?, reduceCtorEq, Option.some.injEq] at has
  · subst has
    rfl
  · subst has
    rfl

/-- Couplings with a gate of their own for the exchange. -/
theorem actions_swapGates (couplings : List Coupling) :
    (couplings.filterMap fun coupling => coupling.swapGate?.map coupling.instruction).flatMap
        Instruction.actions =
      (couplings.filter fun coupling => !coupling.swapGate?.isNone).flatMap Layer.coupleSwap := by
  induction couplings with
  | nil => rfl
  | cons coupling rest inductionHypothesis =>
    cases has : coupling.swapGate? with
    | none => simpa [has] using inductionHypothesis
    | some gate => simp [has, actions_swapGate? has, inductionHypothesis]

/-- Couplings and then their exchanges, pair by pair. -/
theorem agrees_couple_exchange {couplings : List Coupling}
    (once : (couplings.flatMap qubits).Nodup) :
    Agrees
      (((couplings.map fun coupling => coupling.instruction coupling.gate).flatMap
          Instruction.actions) ++
        (couplings.map fun coupling =>
          Instruction.onQubits .swap (pairQubits coupling.pair)).flatMap Instruction.actions)
      (couplings.flatMap Layer.coupleSwap) := by
  rw [List.flatMap_map, List.flatMap_map]
  have exchanged : Agrees
      (couplings.flatMap fun coupling =>
        (Instruction.onQubits .swap (pairQubits coupling.pair)).actions)
      (couplings.flatMap fun coupling => [.exchange coupling.first.id coupling.second.id]) :=
    Agrees.flatMap fun coupling _ =>
      Agrees.smallerFirst Agrees.exchange_comm coupling.first.id coupling.second.id
  have rounds := Agrees.flatMap_append
    (pairwise_independent once qubits_exchange_subset qubits_couple_subset
      fun _ _ _ made _ _ => .inl (by rw [List.mem_singleton.mp made]; rfl))
  exact ((Agrees.refl _).append exchanged).trans rounds.symm

/-- The instructions of couplings with exchanges do what these do. -/
theorem agrees_swapInstructions {couplings : List Coupling}
    (once : (couplings.flatMap qubits).Nodup) :
    Agrees ((swapInstructions couplings).flatMap Instruction.actions)
      (Layer.interactSwap couplings).actions := by
  have sortedOnce := nodup_sorted once
  have parts := List.filter_append_perm (fun coupling => coupling.swapGate?.isNone)
    (sorted couplings)
  have genericOnce : (((sorted couplings).filter fun coupling =>
      coupling.swapGate?.isNone).flatMap qubits).Nodup :=
    sortedOnce.sublist (List.filter_sublist.flatMap qubits)
  have swapped := (Agrees.refl (((sorted couplings).filter fun coupling =>
      !coupling.swapGate?.isNone).flatMap Layer.coupleSwap)).append
    (agrees_couple_exchange genericOnce)
  have regrouped := Agrees.flatMap_of_perm (List.perm_append_comm.trans parts)
    (pairwise_independent
      (((List.perm_append_comm.trans parts).flatMap_right qubits).nodup_iff.mpr sortedOnce)
      qubits_coupleSwap_subset qubits_coupleSwap_subset
      fun coupling _ action made _ _ => .inl (isRecord_of_mem_coupleSwap coupling action made))
  have ordered := agrees_sorted once agrees_coupleSwap_canonical qubits_coupleSwap_subset
    isRecord_of_mem_coupleSwap
  rw [List.flatMap_append] at regrouped
  rw [swapInstructions, List.flatMap_append, List.flatMap_append, actions_swapGates,
    List.append_assoc, Layer.actions]
  exact (swapped.trans regrouped).trans ordered

end Coupling

/-! ### Other pairs -/

/-- The instructions of exchanges in some way do what these do. -/
theorem agrees_exchangeInstructions {gate : Gate} {act : Qubit → Qubit → Action}
    {pairs : List (Qubit × Qubit)} (once : (pairs.flatMap pairQubits).Nodup)
    (actions : ∀ pair, (Instruction.onQubits gate (pairQubits pair)).actions = [act pair.1 pair.2])
    (qubits : ∀ pair : Qubit × Qubit, (act pair.1 pair.2).qubits = pairQubits pair)
    (silent : ∀ first second, (act first second).isRecord = false) :
    Agrees ((exchangeInstructions gate pairs).flatMap Instruction.actions)
      (pairs.map fun (id, other) => act id other) := by
  have within : ∀ pair : Qubit × Qubit, ∀ action ∈ [act pair.1 pair.2],
      action.qubits ⊆ pairQubits pair := by
    intro pair action made
    rw [List.mem_singleton.mp made, qubits]
    exact List.Subset.refl _
  have perm := sortByKey_perm pairKey pairs
  have ordered := Agrees.flatMap_of_perm perm
    (pairwise_independent ((perm.flatMap_right pairQubits).nodup_iff.mpr once) within within
      fun _ _ _ made _ _ => .inl (by rw [List.mem_singleton.mp made]; exact silent _ _))
  rw [exchangeInstructions, sortedPairs, List.flatMap_map, List.map_eq_flatMap,
    List.flatMap_congr fun pair _ => actions pair]
  exact ordered

namespace SqrtPair

/-- The instruction of a square root does it. -/
theorem agrees_instruction (pair : SqrtPair) :
    Agrees pair.instruction.actions [.sqrtProduct pair] := by
  have comm : ∀ first second,
      Agrees [.sqrtProduct { pair with first := second, second := first }]
        [.sqrtProduct { pair with first := first, second := second }] :=
    fun first second => Agrees.sqrtProduct_reversed { pair with first := first, second := second }
  exact Agrees.smallerFirst comm pair.first pair.second

/-- The instructions of square roots do what these do. -/
theorem agrees_instructions {pairs : List SqrtPair} (once : (pairs.flatMap qubits).Nodup) :
    Agrees ((instructions pairs).flatMap Instruction.actions) (Layer.sqrtProduct pairs).actions := by
  have within : ∀ pair : SqrtPair, ∀ action ∈ [Action.sqrtProduct pair],
      action.qubits ⊆ pair.qubits := by
    intro pair action made
    rw [List.mem_singleton.mp made]
    exact List.Subset.refl _
  have perm := sortByKey_perm key pairs
  have ordered := Agrees.flatMap_of_perm perm
    (pairwise_independent ((perm.flatMap_right qubits).nodup_iff.mpr once) within within
      fun _ _ _ made _ _ => .inl (by rw [List.mem_singleton.mp made]; rfl))
  rw [instructions, List.flatMap_map, Layer.actions, List.map_eq_flatMap]
  exact (Agrees.flatMap fun pair _ => pair.agrees_instruction).trans ordered

end SqrtPair

end StabilizerLayers
