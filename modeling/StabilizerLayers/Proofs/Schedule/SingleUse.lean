import StabilizerLayers.Proofs.Schedule.Slots

/-!
# Qubits in one entry

The entries of a layer that resets, measures, gives feedback or acts on pairs happen
in one slot, so no qubit may stand in two of them, and no pair may couple a qubit with
itself. Exchanges cancel and fuse with couplings only because of this.

Grouping starts from runs, which name no qubit twice, and merges layers on distinct
qubits only. The passes merge in the same way, exchange the two qubits of couplings,
change axes, and cancel exchanges; none of it brings a qubit into a second entry.
-/

namespace StabilizerLayers

namespace Layer

/-- The qubits of each entry, for the kinds of layer whose entries take their qubits for
    themselves. -/
def units : Layer → List (List Qubit)
  | reset targets => targets.keys.map fun id => [id]
  | measure targets => targets.map fun target => [target.id]
  | feedback entries => entries.map fun entry => [entry.id]
  | interact couplings | interactSwap couplings => couplings.map Coupling.qubits
  | swap pairs | iswap pairs => pairs.map pairQubits
  | sqrtProduct pairs => pairs.map SqrtPair.qubits
  | rotation _ | product _ | parity _ | qubitCoords _ | shiftCoords _ | empty | loop _ _ => []

/-- Whether each qubit stands in at most one entry, and there once. -/
structure UsesOnce (layer : Layer) : Prop where
  /-- No two entries share a qubit. -/
  spread : Spread layer.units
  /-- The qubits of an entry differ. -/
  distinct : ∀ unit ∈ layer.units, unit.Nodup

variable {layer other first second both : Layer}

/-- A layer uses each qubit once if its entries together name no qubit twice. -/
theorem usesOnce_iff : layer.UsesOnce ↔ layer.units.flatten.Nodup := by
  rw [List.nodup_flatten]
  exact ⟨fun once => ⟨once.distinct, once.spread⟩, fun once => ⟨once.2, once.1⟩⟩

instance : DecidablePred UsesOnce := fun _ => decidable_of_iff _ usesOnce_iff.symm

/-- A layer without entries of its own uses no qubit twice. -/
theorem usesOnce_of_units_eq_nil (none : layer.units = []) : layer.UsesOnce := by
  rw [usesOnce_iff, none]
  exact List.nodup_nil

/-- The entries name the touched qubits, if they name any. -/
theorem flatten_units (listed : layer.units ≠ []) : layer.units.flatten = layer.touched := by
  cases layer with
  | reset _ | measure _ | feedback _ =>
    simp [units, touched, ← List.flatMap_def, ← List.map_eq_flatMap]
  | interact _ | interactSwap _ | swap _ | iswap _ | sqrtProduct _ =>
    simp [units, touched, List.flatMap_def]
  | rotation _ | product _ | parity _ | qubitCoords _ | shiftCoords _ | empty | loop _ _ =>
    exact absurd rfl listed

/-- A layer that touches no qubit twice uses each qubit once. -/
theorem UsesOnce.of_touched (once : layer.touched.Nodup) : layer.UsesOnce := by
  by_cases none : layer.units = []
  · exact usesOnce_of_units_eq_nil none
  · rw [usesOnce_iff, flatten_units none]
    exact once

/-- What a layer names in its entries, it touches. -/
theorem mem_touched_of_mem_units {id : Qubit} (named : id ∈ layer.units.flatten) :
    id ∈ layer.touched := by
  have listed : layer.units ≠ [] := by
    rintro none
    simp [none] at named
  exact flatten_units listed ▸ named

/-! ### Merging and rewriting -/

/-- Resets name each qubit once by their form. -/
theorem usesOnce_reset (targets : QubitMap Basis) : (reset targets).UsesOnce := by
  refine .of_touched ?_
  rw [touched]
  exact targets.nodup_keys

/-- The entries can be told in another order. -/
theorem UsesOnce.of_perm (once : layer.UsesOnce)
    (perm : other.units.flatten.Perm layer.units.flatten) : other.UsesOnce :=
  usesOnce_iff.mpr (perm.nodup_iff.mpr (usesOnce_iff.mp once))

/-- Entries on distinct qubits stand together. -/
theorem UsesOnce.append (here : first.UsesOnce) (there : second.UsesOnce)
    (whole : both.units = first.units ++ second.units)
    (apart : ∀ id ∈ first.touched, id ∉ second.touched) : both.UsesOnce := by
  rw [usesOnce_iff, whole, List.flatten_append]
  refine (usesOnce_iff.mp here).append (usesOnce_iff.mp there) fun id mine theirs => ?_
  exact apart id (mem_touched_of_mem_units mine) (mem_touched_of_mem_units theirs)

/-- Merged layers use each qubit once if both parts do. -/
theorem usesOnce_absorb? (found : first.absorb? second = some both) (here : first.UsesOnce)
    (there : second.UsesOnce) : both.UsesOnce := by
  cases absorbs_of_absorb? found with
  | reset => exact usesOnce_reset _
  | measure apart | interact apart | interactSwap apart | swap apart | iswap apart
  | sqrtProduct apart | feedback apart => exact here.append there List.map_append apart
  | rotation | product | parity | qubitCoords | shiftCoords => exact usesOnce_of_units_eq_nil rfl

/-- Couplings before an exchange name the qubits of those after it. -/
theorem usesOnce_couplingsBeforeSwap {couplings : List Coupling}
    (once : (interact couplings).UsesOnce) :
    (interactSwap (couplingsBeforeSwap couplings)).UsesOnce := by
  refine once.of_perm ?_
  rw [units, units, ← List.flatMap_def, ← List.flatMap_def]
  exact perm_couplingsBeforeSwap couplings

/-- Two rounds of exchanges that come to one use each qubit once if both rounds do. -/
theorem usesOnce_combineSwaps? {first second pairs : List (Qubit × Qubit)}
    (combined : combineSwaps? first second = some pairs) (here : (swap first).UsesOnce)
    (there : (swap second).UsesOnce) : (swap pairs).UsesOnce := by
  have touchedOnce : ∀ {pairs}, (swap pairs).UsesOnce → (pairs.flatMap pairQubits).Nodup := by
    intro pairs once
    rw [usesOnce_iff, units, ← List.flatMap_def] at once
    exact once
  exact .of_touched (nodup_combineSwaps? combined (touchedOnce here) (touchedOnce there))

/-- The Z-basis form of a layer changes axes and brings in rotations only. -/
theorem everywhere_usesOnce_zForm (flat : layer.isLoop = false) (once : layer.UsesOnce) :
    Everywhere UsesOnce layer.zForm := by
  have idle : ∀ rotations, (Layer.rotation rotations).UsesOnce := fun _ =>
    usesOnce_of_units_eq_nil rfl
  fun_cases Layer.zForm layer with
  | case1 | case7 => exact ⟨(within_of_flat flat).mpr once, trivial⟩
  | case2 => exact everywhere_between_of_flat idle rfl (usesOnce_reset _)
  | case3 | case4 | case5 | case6 =>
    refine everywhere_between_of_flat idle rfl (once.of_perm (.of_eq ?_))
    rw [units, units, List.map_map]
    rfl

/-- Using each qubit once survives every pass. -/
theorem stable_usesOnce : Stable UsesOnce where
  empty := usesOnce_of_units_eq_nil rfl
  rotation _ := usesOnce_of_units_eq_nil rfl
  absorb := usesOnce_absorb?
  feedback rotations entries once := by
    refine once.of_perm (.of_eq ?_)
    rw [units, units, feedbackBefore, List.map_map]
    rfl
  interactSwap once := once.of_perm (.refl _)
  swapInteract := usesOnce_couplingsBeforeSwap
  swaps := usesOnce_combineSwaps?
  zForm := everywhere_usesOnce_zForm
  coords _ := usesOnce_of_units_eq_nil rfl

/-- A well-formed layer whose feedback is apart uses each qubit once. -/
theorem WellFormed.usesOnce (formed : layer.WellFormed) (apart : layer.Apart) :
    layer.UsesOnce := by
  cases layer with
  | reset targets => exact usesOnce_reset targets
  | measure _ | interact _ | interactSwap _ | swap _ | iswap _ | sqrtProduct _ =>
    exact .of_touched formed
  | feedback _ =>
    refine .of_touched ?_
    rw [touched]
    exact apart
  | rotation _ | product _ | parity _ | qubitCoords _ | shiftCoords _ | empty | loop _ _ =>
    exact usesOnce_of_units_eq_nil rfl

end Layer

/-! ### Grouping -/

namespace Instruction

variable {instruction : Instruction} {layers : List Layer}

/-- Product measurements make nothing but layers of products. -/
theorem usesOnce_productLayers (read : instruction.productLayers = .ok layers) :
    Layer.Everywhere Layer.UsesOnce layers := by
  revert read
  fun_cases productLayers instruction with
  | case1 | case2 => nofun
  | case3 =>
    intro read
    obtain rfl := Except.ok.inj read
    refine Layer.everywhere_iff.mpr fun layer member => ?_
    obtain ⟨factors, -, rfl⟩ := List.mem_map.mp member
    exact Layer.usesOnce_of_units_eq_nil rfl

/-- The layers of a valid instruction use each qubit once. -/
theorem usesOnce_layers (valid : instruction.validate = .ok ())
    (read : instruction.layers = .ok layers) : Layer.Everywhere Layer.UsesOnce layers := by
  by_cases measures : instruction.gate? = some .measureProduct
  · rw [Instruction.layers, measures] at read
    exact usesOnce_productLayers read
  · -- Nothing is asked of products, so the instruction has the form that its layers need.
    have formed : instruction.FormsProducts := fun named => absurd named measures
    have grouped := Layer.allFormed_iff_everywhere.mp (standFor_layers valid formed read).1
    have apart := everywhere_layers (fun _ made => made.apart formed) read
    exact (grouped.and apart).imp fun _ _ both => both.1.usesOnce both.2

end Instruction

namespace Schedule

/-- The changes of schedules, each told for a schedule of any origin. -/
def changes : List (Schedule → Schedule) :=
  [hoistCoords, sweep, zForm, rollLoops, withoutIdleRotations, mergeRotations,
    withoutRotationsBeforeResets, withoutTail]

/-- Every change keeps a stable property. -/
theorem keeps_of_mem_changes {holds : Layer → Prop} (stable : Layer.Stable holds)
    {change : Schedule → Schedule} (listed : change ∈ changes) (schedule : Schedule) :
    Keeps holds schedule (change schedule) := by
  simp only [changes, List.mem_cons, List.not_mem_nil, or_false] at listed
  rcases listed with rfl | rfl | rfl | rfl | rfl | rfl | rfl | rfl
  · exact stable.keeps_hoistCoords schedule
  · exact stable.keeps_sweep schedule
  · exact stable.keeps_transform .zForm schedule
  · exact stable.keeps_transform .rollLoops schedule
  · exact stable.keeps_transform .dropIdleRotations schedule
  · exact stable.keeps_transform .mergeRotations schedule
  · exact stable.keeps_transform .dropRotationsBeforeResets schedule
  · exact stable.keeps_transform .dropTail schedule

/-- The changes of a sequence, one after the other. -/
def changeAll (sequence : List (Schedule → Schedule)) (schedule : Schedule) : Schedule :=
  sequence.foldl (fun reached change => change reached) schedule

/-- Every sequence of changes keeps a stable property. -/
theorem keeps_changeAll {holds : Layer → Prop} (stable : Layer.Stable holds)
    {sequence : List (Schedule → Schedule)} (listed : sequence ⊆ changes) (schedule : Schedule) :
    Keeps holds schedule (schedule.changeAll sequence) := by
  induction sequence generalizing schedule with
  | nil => exact id
  | cons change rest inductionHypothesis =>
    obtain ⟨here, later⟩ := List.cons_subset.mp listed
    intro everywhere
    exact inductionHypothesis later (change schedule)
      (keeps_of_mem_changes stable here schedule everywhere)

/-- The layers of a grouped circuit of valid instructions use each qubit once. -/
theorem usesOnce_ofCircuit {circuit : Circuit} {schedule : Schedule} (valid : circuit.Valid)
    (grouped : ofCircuit circuit = .ok schedule) : Layer.Everywhere Layer.UsesOnce schedule :=
  everywhere_ofCircuit Layer.stable_usesOnce
    (fun instruction member _ => Instruction.usesOnce_layers (valid instruction member)) grouped

/-- No layer uses a qubit twice, at any loop depth: not after grouping a valid circuit,
    not after a change of a schedule in which none does, and so not after any sequence of
    changes of a grouped circuit. -/
theorem everywhere_usesOnce :
    (∀ (circuit : Circuit) (schedule : Schedule), circuit.Valid →
      ofCircuit circuit = .ok schedule → Layer.Everywhere Layer.UsesOnce schedule) ∧
    (∀ change ∈ changes, ∀ schedule : Schedule, Layer.Everywhere Layer.UsesOnce schedule →
      Layer.Everywhere Layer.UsesOnce (change schedule)) ∧
    (∀ (circuit : Circuit) (schedule : Schedule), circuit.Valid →
      ofCircuit circuit = .ok schedule → ∀ sequence ⊆ changes,
        Layer.Everywhere Layer.UsesOnce (schedule.changeAll sequence)) := by
  refine ⟨fun circuit schedule => usesOnce_ofCircuit, fun change listed schedule => ?_,
    fun circuit schedule valid grouped sequence listed => ?_⟩
  · exact keeps_of_mem_changes Layer.stable_usesOnce listed schedule
  · exact keeps_changeAll Layer.stable_usesOnce listed schedule
      (usesOnce_ofCircuit valid grouped)

/-- A circuit with a qubit in two pairs of one instruction, a measured reset, a block and
    exchanges that cancel. -/
def repeatingSample : Circuit :=
  [.single (.onQubits (.controlled .Z .X) [0, 1, 1, 2]),
    .single (.onQubits (.measureReset .Y) [0, 0, 1]),
    .block 2 [.single (.onQubits .swap [0, 1, 2, 3]), .single .tick,
      .single (.onQubits .swap [1, 0])]]

/-- Repeated qubits are spread over layers, and five changes in a row keep them apart. -/
theorem everywhere_usesOnce_sample :
    ∃ schedule, repeatingSample.Valid ∧ ofCircuit repeatingSample = .ok schedule ∧
      Layer.Everywhere Layer.UsesOnce
        (schedule.changeAll [sweep, zForm, hoistCoords, sweep, withoutTail]) := by
  have valid : repeatingSample.Valid := by decide +kernel
  obtain ⟨schedule, grouped⟩ : ∃ schedule, ofCircuit repeatingSample = .ok schedule :=
    exists_of_isOk (by decide +kernel)
  refine ⟨schedule, valid, grouped, ?_⟩
  exact everywhere_usesOnce.2.2 repeatingSample schedule valid grouped _ (by simp [changes])

end Schedule

end StabilizerLayers
