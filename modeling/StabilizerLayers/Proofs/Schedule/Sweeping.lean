import StabilizerLayers.Proofs.Schedule.Exchanges
import StabilizerLayers.Schedule.Sweep

/-!
# Neighbours in a sweep

A sweep puts a layer beside its neighbour, one pair after the other. What two
neighbours come to does what they do, and what a layer comes to on its own does what
it does. Fusing and cancelling exchanges needs entries on distinct qubits; merging
product measurements needs whole products.
-/

namespace StabilizerLayers

namespace Layer

/-! ### Rotations beside other layers -/

/-- Rotations write and read no records. -/
theorem isRecord_of_mem_rotation {rotations : RotationLayer} {action : Action}
    (made : action ∈ (rotation rotations).actions) : action.isRecord = false := by
  rw [actions] at made
  exact isRecord_of_mem_turns made

/-- Rotations pass actions on other qubits. -/
theorem agrees_rotation_comm {rotations : RotationLayer} {actions : List Action}
    (apart : ∀ action ∈ actions, ∀ id ∈ action.qubits, id ∉ rotations.touched) :
    Agrees (actions ++ (rotation rotations).actions) ((rotation rotations).actions ++ actions) := by
  refine (Agrees.append_comm fun action made next later => ?_).symm
  refine ⟨fun id member shared => ?_, fun recorded => ?_⟩
  · exact apart next later id shared (mem_touched made member)
  · simp [isRecord_of_mem_rotation made] at recorded

/-- Rotations before resets of their qubits are forgotten. -/
theorem forgets_reset (targets : QubitMap Basis) {id : Qubit} (member : id ∈ targets.keys) :
    Forgets id (reset targets).actions := by
  rw [actions]
  rw [QubitMap.keys] at member
  generalize targets.entries = entries at member
  induction entries with
  | nil => simp at member
  | cons entry rest inductionHypothesis =>
    obtain ⟨key, basis⟩ := entry
    by_cases same : id = key
    · subst same
      exact .reset id basis _
    · have later : id ∈ rest.map fun entry => entry.1 := by simpa [same] using member
      have apart : ∀ action ∈ [Action.reset key basis], id ∉ action.qubits := by
        simp [Action.qubits, same]
      have passed := Forgets.append_left apart (inductionHypothesis later)
      exact passed

/-- A reset after rotations leaves only the rotations of other qubits. -/
theorem agrees_rotation_reset (rotations : RotationLayer) (targets : QubitMap Basis) :
    Agrees (actionsAll (ofRotations (rotations.without targets.keys) ++ [reset targets]))
      ((rotation rotations).actions ++ (reset targets).actions) := by
  have kept := (Agrees.ofRotations (rotations.without targets.keys)).append
    (.refl (reset targets).actions)
  have forgotten := Agrees.turns_filter (fun id member => forgets_reset targets member)
    rotations.rotations.entries
  rw [actionsAll_append]
  simp only [actionsAll, List.append_nil]
  refine kept.trans ?_
  rw [actions, actions]
  exact forgotten

/-- Feedback passes rotations before it and turns back with them. -/
theorem agrees_rotation_feedback (rotations : RotationLayer) (entries : List Feedback) :
    Agrees ((feedback (feedbackBefore rotations entries)).actions ++ (rotation rotations).actions)
      ((rotation rotations).actions ++ (feedback entries).actions) := by
  have single : ∀ entry : Feedback,
      Agrees ([.feedback { entry with basis := (rotations.get entry.id).inverse.apply entry.basis }]
          ++ (rotation rotations).actions)
        ((rotation rotations).actions ++ [.feedback entry]) := by
    intro entry
    have quiet : ∀ placement : Placement, placement.events (rotation rotations).actions = [] := by
      intro placement
      rw [actions, Placement.events_turns]
    refine .of_same_events (fun placement => ?_) (fun placement => ?_) ?_
    · rw [Placement.after_append, Placement.after_append]
      rfl
    · rw [Placement.events_append, Placement.events_append, Placement.after_rotation, quiet, quiet]
      simp [Placement.events, Action.event?, Placement.turned, Placement.leg,
        Rotation.inverse_of_followedBy]
    · rw [records_append, records_append, actions, records_turns]
      rfl
  rw [actions, actions, feedbackBefore]
  induction entries with
  | nil => simpa using Agrees.refl _
  | cons entry rest inductionHypothesis =>
    have later := (Agrees.refl [.feedback { entry with
      basis := (rotations.get entry.id).inverse.apply entry.basis }]).append inductionHypothesis
    have here := (single entry).append (.refl (rest.map Action.feedback))
    simp only [List.append_assoc] at later here
    exact later.trans here

/-! ### Neighbours -/

/-- Two layers that are kept do what they did. -/
theorem agrees_both (layer next : Layer) :
    Agrees (actionsAll [layer, next]) (layer.actions ++ next.actions) := by
  simpa [actionsAll] using Agrees.refl _

/-- What two neighbours come to does what they do. -/
theorem agrees_alongside {layer next : Layer} (here : layer.NamesOnce) (there : next.NamesOnce)
    (hereWhole : layer.HoldsProducts) (thereWhole : next.HoldsProducts) :
    Agrees (actionsAll (layer.alongside next)) (layer.actions ++ next.actions) := by
  fun_cases alongside layer next with
  | case1 first second =>
    exact (Agrees.ofRotations (first.followedBy second)).trans
      (Agrees.rotation_followedBy first second).symm
  | case2 rotations targets => exact agrees_rotation_reset rotations targets
  | case3 rotations entries =>
    exact (agrees_both _ _).trans (agrees_rotation_feedback rotations entries)
  | case4 rotations instructions apart =>
    refine (agrees_both _ _).trans (agrees_rotation_comm fun action made id member turned => ?_)
    exact disjoint_eq_true_iff.mp apart id turned (mem_touched made member)
  | case6 rotations shift => simpa [actionsAll, actions] using Agrees.refl _
  | case7 targets rotations apart =>
    refine (agrees_both _ _).trans (agrees_rotation_comm fun action made id member => ?_).symm
    exact disjoint_eq_true_iff.mp apart id (mem_touched made member)
  | case9 couplings pairs same =>
    simpa [actionsAll] using agrees_interact_swap same here
  | case11 pairs couplings same =>
    simpa [actionsAll] using agrees_swap_interact same there
  | case13 first second combined => exact agrees_combineSwaps? combined here there
  | case14 first second pairs _ combined =>
    simpa [actionsAll] using agrees_combineSwaps? combined here there
  | case5 | case8 | case10 | case12 | case15 => exact agrees_both _ _
  | case16 layer next => exact agrees_merged hereWhole thereWhole

/-! ### Layers on their own -/

/-- A layer that has no effect does nothing. -/
theorem actions_of_isVacuous {layer : Layer} (vacuous : layer.isVacuous = true)
    (notRotation : ∀ rotations, layer ≠ rotation rotations) : layer.actions = [] := by
  cases layer with
  | rotation rotations => exact absurd rfl (notRotation rotations)
  | product targets =>
    obtain rfl : targets = [] := by simpa [isVacuous] using vacuous
    rfl
  | loop repetitions body =>
    obtain none | none : repetitions = 0 ∨ body = [] := by simpa [isVacuous] using vacuous
    · simp [actions, repeated, none]
    · simp [actions, actionsAll, repeated, none]
  | reset _ | measure _ | interact _ | interactSwap _ | swap _ | iswap _ | sqrtProduct _
  | feedback _ | parity _ =>
    simp_all [isVacuous, actions, QubitMap.isEmpty]
  | qubitCoords _ | shiftCoords _ | empty => rfl

/-- What a loop comes to does what it does. -/
theorem agrees_unloop (repetitions : UInt64) (body : List Layer) :
    Agrees (actionsAll (unloop repetitions body)) (loop repetitions body).actions := by
  fun_cases unloop repetitions body with
  | case1 body idle =>
    have nothing : (loop repetitions body).actions = [] :=
      actions_of_isVacuous idle fun _ => by simp
    rw [nothing]
    exact .refl _
  | case2 body _ once =>
    obtain rfl : repetitions = 1 := by simpa using once
    simpa [actions, repeated] using Agrees.refl _
  | case3 once rotations _ =>
    have powered := (Agrees.ofRotations (rotations.pow repetitions.toNat)).trans
      (Agrees.rotation_pow rotations repetitions.toNat).symm
    simpa [actionsAll, actions] using powered
  | case4 => simpa [actionsAll] using Agrees.refl _

/-- What a single layer comes to does what it does. -/
theorem agrees_alone (layer : Layer) : Agrees (actionsAll layer.alone) layer.actions := by
  fun_cases alone layer with
  | case1 rotations => exact Agrees.ofRotations rotations
  | case2 repetitions body => exact agrees_unloop repetitions body
  | case3 layer notRotation notLoop vacuous =>
    rw [actions_of_isVacuous vacuous notRotation]
    exact .refl _
  | case4 => simpa [actionsAll] using Agrees.refl _

end Layer

end StabilizerLayers
