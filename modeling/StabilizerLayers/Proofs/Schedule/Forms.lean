import StabilizerLayers.Proofs.Trace.Agreement

/-!
# The form of layers

Grouping makes layers with some order in them: most kinds name no qubit twice,
products are whole, feedback has a classical control, and parity layers hold
detectors and observables only. Every pass keeps this.

What a pass relies on is less: that the entries of a layer which measures or acts on
pairs are on distinct qubits, and that products are whole. Controls and the
instructions of parity layers are handed on as they stand.

The actions of a layer act on qubits that the layer touches.
-/

namespace StabilizerLayers

namespace Instruction

/-- Whether an instruction is a detector or an observable. -/
def isParity (instruction : Instruction) : Bool :=
  instruction.gate? == some .detector || instruction.gate? == some .observableInclude

end Instruction

namespace Layer

/-! ### The form of layers -/

/-- Whether a layer other than a loop has the form that grouping gives it. -/
def WellFormed (layer : Layer) : Prop :=
  match layer with
  | measure _ | interact _ | interactSwap _ | swap _ | iswap _ | sqrtProduct _ =>
    layer.touched.Nodup
  | feedback entries => ∀ entry ∈ entries, entry.control.isClassical = true
  | product targets => FormsProducts targets
  | parity instructions => ∀ instruction ∈ instructions, instruction.isParity = true
  | _ => True

/-- Whether a layer that measures or acts on pairs names no qubit twice. -/
def NamesOnce (layer : Layer) : Prop :=
  match layer with
  | measure _ | interact _ | interactSwap _ | swap _ | iswap _ | sqrtProduct _ =>
    layer.touched.Nodup
  | _ => True

/-- Whether a layer that measures products holds whole ones. -/
def HoldsProducts : Layer → Prop
  | product targets => FormsProducts targets
  | _ => True

/-- A well-formed layer names no qubit twice. -/
theorem WellFormed.namesOnce {layer : Layer} (formed : layer.WellFormed) : layer.NamesOnce := by
  cases layer with
  | measure _ | interact _ | interactSwap _ | swap _ | iswap _ | sqrtProduct _ => exact formed
  | reset _ | feedback _ | rotation _ | product _ | parity _ | qubitCoords _ | shiftCoords _
  | empty | loop _ _ => trivial

/-- A well-formed layer holds whole products. -/
theorem WellFormed.holdsProducts {layer : Layer} (formed : layer.WellFormed) :
    layer.HoldsProducts := by
  cases layer with
  | product _ => exact formed
  | reset _ | measure _ | interact _ | interactSwap _ | swap _ | iswap _ | sqrtProduct _
  | feedback _ | rotation _ | parity _ | qubitCoords _ | shiftCoords _ | empty | loop _ _ =>
    trivial

mutual

/-- Whether a layer and the layers of its body are well formed. -/
def Formed : Layer → Prop
  | loop _ body => AllFormed body
  | layer => layer.WellFormed

/-- Whether all layers, in bodies too, are well formed. -/
def AllFormed : List Layer → Prop
  | [] => True
  | first :: rest => first.Formed ∧ AllFormed rest

end

/-- The empty list of layers is formed. -/
@[simp]
theorem allFormed_nil : AllFormed [] := trivial

/-- Layers are formed if the first one and the rest are. -/
@[simp]
theorem allFormed_cons {first : Layer} {rest : List Layer} :
    AllFormed (first :: rest) ↔ first.Formed ∧ AllFormed rest :=
  Iff.rfl

/-- Layers one behind the other are formed if both parts are. -/
@[simp]
theorem allFormed_append {first second : List Layer} :
    AllFormed (first ++ second) ↔ AllFormed first ∧ AllFormed second := by
  induction first with
  | nil => simp
  | cons layer rest inductionHypothesis => simp [inductionHypothesis, and_assoc]

/-- Layers are formed one by one. -/
theorem allFormed_iff {layers : List Layer} :
    AllFormed layers ↔ ∀ layer ∈ layers, layer.Formed := by
  induction layers with
  | nil => simp
  | cons layer rest inductionHypothesis => simp [inductionHypothesis]

/-! ### Actions of layers -/

/-- Layers one behind the other act in that order. -/
@[simp]
theorem actionsAll_append (first second : List Layer) :
    actionsAll (first ++ second) = actionsAll first ++ actionsAll second := by
  induction first with
  | nil => rfl
  | cons layer rest inductionHypothesis =>
    rw [List.cons_append, actionsAll, actionsAll, inductionHypothesis, List.append_assoc]

/-- Repetition brings in no new actions. -/
theorem mem_of_mem_repeated {times : Nat} {actions : List Action} {action : Action}
    (member : action ∈ repeated times actions) : action ∈ actions := by
  obtain ⟨round, listed, member⟩ := List.mem_flatten.mp member
  exact (List.eq_of_mem_replicate listed) ▸ member

/-- The qubits of a product are among those of the targets it is cut from. -/
theorem qubit_of_mem_products {targets factors : List Target} (cut : factors ∈ products targets)
    {id : Qubit} (member : id ∈ pauliQubits factors) : id ∈ targets.filterMap Target.qubit? := by
  obtain ⟨factor, kept, named⟩ := List.mem_filterMap.mp member
  have listed : factor ∈ (products targets).flatten :=
    List.mem_flatten.mpr ⟨factors, cut, (List.mem_filter.mp kept).1⟩
  rw [products, List.flatten_splitBy] at listed
  exact List.mem_filterMap.mpr ⟨factor, listed, named⟩

mutual

/-- The actions of a layer act on qubits that it touches. -/
theorem mem_touched {layer : Layer} {action : Action} (made : action ∈ layer.actions) {id : Qubit}
    (member : id ∈ action.qubits) : id ∈ layer.touched := by
  cases layer with
  | reset targets =>
    rw [actions] at made
    obtain ⟨entry, listed, rfl⟩ := List.mem_map.mp made
    obtain rfl : id = entry.1 := by simpa [Action.qubits] using member
    exact List.mem_map_of_mem listed
  | measure targets =>
    rw [actions] at made
    obtain ⟨target, listed, rfl⟩ := List.mem_map.mp made
    obtain rfl : id = target.id := by simpa [Action.qubits] using member
    exact List.mem_map_of_mem listed
  | interact _ | swap _ | iswap _ | sqrtProduct _ =>
    rw [actions] at made
    obtain ⟨pair, listed, rfl⟩ := List.mem_map.mp made
    exact List.mem_flatMap.mpr ⟨pair, listed, member⟩
  | interactSwap couplings =>
    rw [actions] at made
    obtain ⟨coupling, listed, either⟩ := List.mem_flatMap.mp made
    refine List.mem_flatMap.mpr ⟨coupling, listed, ?_⟩
    obtain rfl | rfl : action = .couple coupling ∨
        action = .exchange coupling.first.id coupling.second.id := by
      simpa [coupleSwap] using either
    · exact member
    · exact member
  | feedback entries =>
    rw [actions] at made
    obtain ⟨entry, listed, rfl⟩ := List.mem_map.mp made
    obtain rfl : id = entry.id := by simpa [Action.qubits] using member
    exact List.mem_map_of_mem listed
  | rotation rotations =>
    rw [actions, turns] at made
    obtain ⟨entry, listed, rfl⟩ := List.mem_map.mp made
    obtain ⟨moved, rfl⟩ : entry.2 ≠ .identity ∧ id = entry.1 := by
      simpa [Action.qubits] using member
    exact List.mem_map_of_mem (List.mem_filter.mpr ⟨listed, by simp [moved]⟩)
  | product targets =>
    rw [actions] at made
    obtain ⟨factors, cut, rfl⟩ := List.mem_map.mp made
    exact qubit_of_mem_products cut member
  | parity instructions =>
    rw [actions] at made
    obtain ⟨instruction, listed, rfl⟩ := List.mem_map.mp made
    exact List.mem_flatMap.mpr ⟨instruction, listed, member⟩
  | qubitCoords _ | shiftCoords _ | empty => simp [actions] at made
  | loop repetitions body =>
    rw [actions] at made
    exact mem_touchedAll (mem_of_mem_repeated made) member

/-- The actions of layers act on qubits that they touch. -/
theorem mem_touchedAll {layers : List Layer} {action : Action} (made : action ∈ actionsAll layers)
    {id : Qubit} (member : id ∈ action.qubits) : id ∈ touchedAll layers := by
  cases layers with
  | nil => simp [actionsAll] at made
  | cons first rest =>
    rw [touchedAll]
    rcases List.mem_append.mp made with here | later
    · exact List.mem_append_left _ (mem_touched here member)
    · exact List.mem_append_right _ (mem_touchedAll later member)

end

end Layer

end StabilizerLayers
