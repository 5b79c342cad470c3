import StabilizerLayers.Proofs.Schedule.Forms
import StabilizerLayers.Proofs.Trace.Forgetting
import StabilizerLayers.Schedule.Tail

/-!
# What the removal of a tail leaves

A schedule is a start and a tail of layers that measure nothing and hold no other
layers. Without the tail, the start is followed by the metadata of the tail, which
names no qubit. So no record is lost, and the events that are left out are
resets, operations on two qubits and feedback behind everything that is measured.
-/

namespace StabilizerLayers

namespace Action

/-- Whether an action can be left out where no measurement sees it. -/
def isUnseen : Action → Bool
  | measure _ | product _ | parity _ => false
  | rotate .. | exchange .. | reset .. | feedback _ | couple _ | sqrtProduct _ | iswap .. => true

/-- An unseen action makes no record. -/
theorem record?_of_isUnseen {action : Action} (unseen : action.isUnseen = true) :
    action.record? = none := by
  cases action <;> simp_all [isUnseen, record?]

/-- A detector or an observable on no qubits names no Pauli operator. -/
theorem isPauli_of_qubits_parity {instruction : Instruction}
    (none : (parity instruction).qubits = []) {target : Target}
    (named : target ∈ instruction.targets) : target.isPauli = false := by
  cases target with
  | pauli basis id inverted =>
    have member : id ∈ (parity instruction).qubits := Placement.mem_pauliQubits named
    rw [none] at member
    cases member
  | qubit _ _ | combiner | record _ | sweep _ => rfl

/-- The event of an unseen action can be left out. -/
theorem isUnseen_of_event? {placement : Placement} {action : Action} {event : Event}
    (left : action.event? placement = some event) : event.isUnseen = action.isUnseen := by
  cases action <;> first
    | (simp [event?] at left; done)
    | (obtain rfl := Option.some.inj left; rfl)

end Action

namespace Placement

/-- What tells an operator on its wire leaves it an operator. -/
theorem isPauli_target (placement : Placement) (target : Target) :
    (placement.target target).isPauli = target.isPauli := by
  cases target <;> rfl

/-- Every event is that of an action, at some placement. -/
theorem exists_of_mem_events {placement : Placement} {actions : List Action} {event : Event}
    (member : event ∈ placement.events actions) :
    ∃ action ∈ actions, ∃ elsewhere, action.event? elsewhere = some event := by
  induction actions generalizing placement with
  | nil => simp [events] at member
  | cons action rest inductionHypothesis =>
    rcases List.mem_append.mp member with here | later
    · exact ⟨action, .head _, placement, Option.mem_toList.mp here⟩
    · obtain ⟨other, listed, elsewhere, left⟩ := inductionHypothesis later
      exact ⟨other, .tail _ listed, elsewhere, left⟩

/-- The events of unseen actions can be left out. -/
theorem isUnseen_of_mem_events {placement : Placement} {actions : List Action}
    (unseen : ∀ action ∈ actions, action.isUnseen = true) {event : Event}
    (member : event ∈ placement.events actions) : event.isUnseen = true := by
  obtain ⟨action, made, elsewhere, left⟩ := exists_of_mem_events member
  rw [Action.isUnseen_of_event? left]
  exact unseen action made

/-- Actions on no qubits leave the same events everywhere. -/
theorem events_of_no_qubits {actions : List Action} (none : ∀ action ∈ actions, action.qubits = [])
    (first second : Placement) : first.events actions = second.events actions := by
  induction actions generalizing first second with
  | nil => rfl
  | cons action rest inductionHypothesis =>
    have here : action.event? first = action.event? second :=
      Action.event?_congr fun id member => by
        simp [none action (.head _)] at member
    rw [events, events, here,
      inductionHypothesis (fun other listed => none other (.tail _ listed)) (action.move first)
        (action.move second)]

end Placement

namespace Layer

/-- A layer that can be left out does nothing that is seen. -/
theorem isUnseen_of_isForgettable {layer : Layer} (forgettable : layer.isForgettable = true)
    {action : Action} (made : action ∈ layer.actions) : action.isUnseen = true := by
  cases layer with
  | reset _ | interact _ | swap _ | iswap _ | sqrtProduct _ | feedback _ | rotation _ =>
    rw [actions] at made
    obtain ⟨entry, -, rfl⟩ := List.mem_map.mp made
    rfl
  | interactSwap couplings =>
    rw [actions] at made
    obtain ⟨coupling, -, either⟩ := List.mem_flatMap.mp made
    obtain rfl | rfl : action = .couple coupling ∨
        action = .exchange coupling.first.id coupling.second.id := by
      simpa [coupleSwap] using either
    · rfl
    · rfl
  | empty => simp [actions] at made
  | measure _ | product _ | parity _ | qubitCoords _ | shiftCoords _ | loop _ _ =>
    simp [isForgettable] at forgettable

/-- A layer that can be left out makes no record. -/
theorem records_of_isForgettable {layer : Layer} (forgettable : layer.isForgettable = true) :
    records layer.actions = [] :=
  List.filterMap_eq_nil_iff.mpr fun _ made =>
    Action.record?_of_isUnseen (isUnseen_of_isForgettable forgettable made)

/-- Metadata that names no qubit acts on none. -/
theorem qubits_of_namesNoQubit {layer : Layer} (metadata : layer.namesNoQubit = true)
    {action : Action} (made : action ∈ layer.actions) : action.qubits = [] := by
  obtain ⟨-, none⟩ := Bool.and_eq_true_iff.mp metadata
  refine List.eq_nil_iff_forall_not_mem.mpr fun id member => ?_
  have touched := mem_touched made member
  rw [List.isEmpty_iff.mp none] at touched
  simp at touched

/-- Metadata that names no qubit leaves quiet events. -/
theorem isQuiet_of_namesNoQubit {layer : Layer} (metadata : layer.namesNoQubit = true)
    {placement : Placement} {event : Event} (member : event ∈ placement.events layer.actions) :
    event.isQuiet = true := by
  obtain ⟨action, made, elsewhere, left⟩ := Placement.exists_of_mem_events member
  have none := qubits_of_namesNoQubit metadata made
  cases layer with
  | parity instructions =>
    rw [actions] at made
    obtain ⟨instruction, -, rfl⟩ := List.mem_map.mp made
    obtain rfl := Option.some.inj left
    have noPauli : ∀ target ∈ instruction.targets, target.isPauli = false :=
      fun target named => Action.isPauli_of_qubits_parity none named
    simpa [Event.isQuiet, Placement.isPauli_target] using noPauli
  | qubitCoords _ | shiftCoords _ => simp [actions] at made
  | reset _ | interact _ | swap _ | iswap _ | sqrtProduct _ | feedback _ | rotation _
  | interactSwap _ | empty | measure _ | product _ | loop _ _ =>
    simp [namesNoQubit, isMetadata] at metadata

end Layer

namespace Schedule

/-- The layers that the removal of a tail goes through, latest first, and those
    before them. -/
theorem dropTail_parts (latestFirst : List Layer) :
    ∃ tail start, latestFirst = tail ++ start ∧
      dropTail latestFirst = (tail.filter fun layer => !layer.isForgettable) ++ start ∧
      ∀ layer ∈ tail, layer.isForgettable = true ∨ layer.namesNoQubit = true := by
  fun_induction dropTail latestFirst with
  | case1 => exact ⟨[], [], rfl, rfl, by simp⟩
  | case2 layer earlier forgettable inductionHypothesis =>
    obtain ⟨tail, start, rfl, dropped, each⟩ := inductionHypothesis
    refine ⟨layer :: tail, start, rfl, by simp [forgettable, dropped], fun other member => ?_⟩
    rcases List.mem_cons.mp member with rfl | later
    · exact .inl forgettable
    · exact each other later
  | case3 layer earlier kept metadata inductionHypothesis =>
    obtain ⟨tail, start, rfl, dropped, each⟩ := inductionHypothesis
    refine ⟨layer :: tail, start, rfl, by simp [kept, dropped], fun other member => ?_⟩
    rcases List.mem_cons.mp member with rfl | later
    · exact .inr metadata
    · exact each other later
  | case4 layer earlier => exact ⟨[], layer :: earlier, rfl, rfl, by simp⟩

/-- A schedule is a start and a tail, of which only metadata is kept. -/
theorem withoutTail_parts (schedule : Schedule) :
    ∃ start tail, schedule = start ++ tail ∧
      schedule.withoutTail = start ++ tail.filter (fun layer => !layer.isForgettable) ∧
      ∀ layer ∈ tail, layer.isForgettable = true ∨ layer.namesNoQubit = true := by
  obtain ⟨tail, start, whole, dropped, each⟩ := dropTail_parts schedule.reverse
  refine ⟨start.reverse, tail.reverse, ?_, ?_, fun layer member => ?_⟩
  · rw [← List.reverse_append, ← whole, List.reverse_reverse]
  · rw [withoutTail, dropped, List.reverse_append, List.filter_reverse]
  · exact each layer (List.mem_reverse.mp member)

/-- A schedule without its tail is formed if the schedule is. -/
theorem allFormed_withoutTail {schedule : Schedule} (formed : Layer.AllFormed schedule) :
    Layer.AllFormed schedule.withoutTail := by
  obtain ⟨start, tail, rfl, dropped, -⟩ := withoutTail_parts schedule
  obtain ⟨startFormed, tailFormed⟩ := Layer.allFormed_append.mp formed
  rw [dropped]
  refine Layer.allFormed_append.mpr ⟨startFormed, Layer.allFormed_iff.mpr fun layer member => ?_⟩
  exact Layer.allFormed_iff.mp tailFormed layer (List.mem_filter.mp member).1

/-- Layers that can be left out make no records. -/
theorem records_filter_isForgettable (layers : List Layer) :
    records (Layer.actionsAll (layers.filter fun layer => !layer.isForgettable)) =
      records (Layer.actionsAll layers) := by
  induction layers with
  | nil => rfl
  | cons layer rest inductionHypothesis =>
    rw [Layer.actionsAll, records_append, ← inductionHypothesis]
    cases forgettable : layer.isForgettable with
    | true => simp [forgettable, Layer.records_of_isForgettable forgettable]
    | false => simp [forgettable, Layer.actionsAll, records_append]

/-- The removal of the tail keeps the record stream. -/
theorem records_withoutTail (schedule : Schedule) :
    records schedule.withoutTail.actions = records schedule.actions := by
  obtain ⟨start, tail, rfl, dropped, -⟩ := withoutTail_parts schedule
  rw [dropped, Schedule.actions, Schedule.actions, Layer.actionsAll_append,
    Layer.actionsAll_append, records_append, records_append, records_filter_isForgettable]

/-- The removal of the tail leaves out events that no measurement sees. -/
theorem thinned_tail {tail : List Layer}
    (each : ∀ layer ∈ tail, layer.isForgettable = true ∨ layer.namesNoQubit = true)
    (first second : Placement) :
    (∀ event ∈ first.events (Layer.actionsAll tail), event.isQuiet = true) ∧
      Thinned (first.events (Layer.actionsAll tail))
        (second.events
          (Layer.actionsAll (tail.filter fun layer => !layer.isForgettable))) := by
  induction tail generalizing first second with
  | nil => exact ⟨by simp [Layer.actionsAll, Placement.events], .nil⟩
  | cons layer rest inductionHypothesis =>
    have later := inductionHypothesis fun other member => each other (.tail _ member)
    rw [Layer.actionsAll, Placement.events_append]
    -- A layer that stays names no qubit, so it is seen alike from both placements, although the
    -- layers that are left out have moved qubits in one of them only.
    cases forgettable : layer.isForgettable with
    | true =>
      have unseen : ∀ event ∈ first.events layer.actions, event.isUnseen = true :=
        fun event member => Placement.isUnseen_of_mem_events
          (fun action made => Layer.isUnseen_of_isForgettable forgettable made) member
      obtain ⟨quiet, thinned⟩ := later (first.after layer.actions) second
      refine ⟨fun event member => ?_, ?_⟩
      · rcases List.mem_append.mp member with here | after
        · exact Event.isQuiet_of_isUnseen (unseen event here)
        · exact quiet event after
      · simpa [forgettable] using (Thinned.of_isUnseen unseen).append thinned
    | false =>
      have metadata : layer.namesNoQubit = true := by
        rcases each layer (.head _) with dropped | kept
        · rw [forgettable] at dropped
          cases dropped
        · exact kept
      have same := Placement.events_of_no_qubits
        (fun action made => Layer.qubits_of_namesNoQubit metadata made) first second
      obtain ⟨quiet, thinned⟩ :=
        later (first.after layer.actions) (second.after layer.actions)
      refine ⟨fun event member => ?_, ?_⟩
      · rcases List.mem_append.mp member with here | after
        · exact Layer.isQuiet_of_namesNoQubit metadata here
        · exact quiet event after
      · simpa [forgettable, Layer.actionsAll, ← same] using
          (Thinned.refl (first.events layer.actions)).append thinned

/-- The removal of the tail forgets a tail of the events. -/
theorem forgetsTail_withoutTail (schedule : Schedule) (placement : Placement) :
    ForgetsTail (placement.events schedule.actions)
      (placement.events schedule.withoutTail.actions) := by
  obtain ⟨start, tail, rfl, dropped, each⟩ := withoutTail_parts schedule
  obtain ⟨quiet, thinned⟩ :=
    thinned_tail each (placement.after (Layer.actionsAll start))
      (placement.after (Layer.actionsAll start))
  refine ⟨placement.events (Layer.actionsAll start), _, _, ?_, ?_, quiet, thinned⟩
  · rw [Schedule.actions, Layer.actionsAll_append, Placement.events_append]
    exact .refl _
  · rw [dropped, Schedule.actions, Layer.actionsAll_append, Placement.events_append]
    exact .refl _

end Schedule

end StabilizerLayers
