import StabilizerLayers.Proofs.Schedule.PassTraces

/-!
# Z-basis forms are normal forms

The Z-basis form of a schedule acts along Z at every loop depth, and a schedule that
does so is its own Z-basis form. So taking the form a second time changes nothing.

The form has the axis trace of the schedule, if the layers of the schedule use each
qubit once: each entry is then conjugated by its own rotations, and no rotation meets
the qubit of another entry. Products need not be whole, because layers of products are
left alone.
-/

namespace StabilizerLayers

namespace Layer

mutual

/-- A layer is canonical if it acts along Z, in its body too. -/
theorem isCanonical_iff_within {layer : Layer} :
    layer.isCanonical = true ↔ layer.Within AlongZ := by
  cases layer with
  | loop _ body =>
    rw [isCanonical, Within]
    exact allCanonical_iff_everywhere
  | reset _ | measure _ | interact _ | interactSwap _ | swap _ | iswap _ | sqrtProduct _
  | feedback _ | rotation _ | product _ | parity _ | qubitCoords _ | shiftCoords _ | empty =>
    exact Iff.rfl

/-- Layers are canonical if they act along Z everywhere. -/
theorem allCanonical_iff_everywhere {layers : List Layer} :
    allCanonical layers = true ↔ Everywhere AlongZ layers := by
  cases layers with
  | nil => simp [allCanonical, Everywhere]
  | cons first rest =>
    rw [allCanonical, Bool.and_eq_true, Everywhere]
    exact and_congr isCanonical_iff_within allCanonical_iff_everywhere

end

/-- A level of canonical layers is its own Z-basis form. -/
theorem zLevel_of_allCanonical {layers : List Layer} (canonical : allCanonical layers = true) :
    Schedule.zLevel layers = layers := by
  induction layers with
  | nil => rfl
  | cons first rest inductionHypothesis =>
    obtain ⟨here, later⟩ := Bool.and_eq_true_iff.mp canonical
    have stays : first.zForm = [first] := if_pos here
    have further : rest.flatMap zForm = rest := inductionHypothesis later
    rw [Schedule.zLevel, List.flatMap_cons, stays, further]
    rfl

mutual

/-- A canonical layer has a body in Z-basis form. -/
theorem inBody_zLevel {layer : Layer} (canonical : layer.isCanonical = true) :
    layer.inBody Schedule.zLevel = layer := by
  cases layer with
  | loop repetitions body =>
    have within : allCanonical body = true := canonical
    rw [inBody, inBodies_zLevel within, zLevel_of_allCanonical within]
  | reset _ | measure _ | interact _ | interactSwap _ | swap _ | iswap _ | sqrtProduct _
  | feedback _ | rotation _ | product _ | parity _ | qubitCoords _ | shiftCoords _ | empty => rfl

/-- Canonical layers have bodies in Z-basis form. -/
theorem inBodies_zLevel {layers : List Layer} (canonical : allCanonical layers = true) :
    inBodies Schedule.zLevel layers = layers := by
  cases layers with
  | nil => rfl
  | cons first rest =>
    obtain ⟨here, later⟩ := Bool.and_eq_true_iff.mp canonical
    rw [inBodies, inBody_zLevel here, inBodies_zLevel later]

end

end Layer

namespace Schedule

/-- The Z-basis form of a schedule is canonical. -/
theorem allCanonical_zForm (schedule : Schedule) : Layer.allCanonical schedule.zForm = true :=
  Layer.allCanonical_iff_everywhere.mpr (everywhere_alongZ_zForm schedule)

/-- A canonical schedule is its own Z-basis form. -/
theorem zForm_of_allCanonical {schedule : Schedule}
    (canonical : Layer.allCanonical schedule = true) : schedule.zForm = schedule := by
  rw [zForm, everyLevel, Layer.inBodies_zLevel canonical, Layer.zLevel_of_allCanonical canonical]

/-- The Z-basis form of a schedule whose layers use each qubit once, at every loop depth,
    is canonical and has the axis trace of the schedule. A canonical schedule is its own
    Z-basis form, so the Z-basis form of a Z-basis form is that form. -/
theorem zForm_normalizes {schedule : Schedule} (once : Layer.Everywhere Layer.UsesOnce schedule) :
    Layer.allCanonical schedule.zForm = true ∧
    schedule.zForm.trace.Equivalent schedule.trace ∧
    (Layer.allCanonical schedule = true → schedule.zForm = schedule) ∧
    schedule.zForm.zForm = schedule.zForm := by
  refine ⟨allCanonical_zForm schedule, ?_, zForm_of_allCanonical,
    zForm_of_allCanonical (allCanonical_zForm schedule)⟩
  have rewrites := Layer.stable_usesOnce.rewrites_zForms Layer.UsesOnce.namesOnce schedule
  exact equivalent_of_rewrites rewrites once

/-- A schedule with entries along different axes in each kind of layer that has a Z-basis
    form, and with a layer of products that are not whole. -/
def mixedAxes : Schedule :=
  [.reset (.ofList [(0, .X), (1, .Y), (2, .Z)]),
    .interactSwap [⟨⟨0, .Y⟩, ⟨1, .X⟩⟩, ⟨⟨3, .Z⟩, ⟨2, .Y⟩⟩],
    .loop 2 [.interact [⟨⟨1, .X⟩, ⟨2, .Y⟩⟩], .sqrtProduct [⟨0, 1, .Y, true⟩, ⟨3, 2, .X, false⟩],
      .measure [⟨2, .Y, true⟩, ⟨0, .X, false⟩]],
    .product [.combiner, .pauli .X 0 false]]

/-- Entries along all axes become canonical, with the same trace and only once. -/
theorem zForm_normalizes_mixedAxes :
    Layer.allCanonical mixedAxes = false ∧
    Layer.allCanonical mixedAxes.zForm = true ∧
    mixedAxes.zForm.trace.Equivalent mixedAxes.trace ∧
    (Layer.allCanonical mixedAxes = true → mixedAxes.zForm = mixedAxes) ∧
    mixedAxes.zForm.zForm = mixedAxes.zForm := by
  refine ⟨by decide +kernel, zForm_normalizes ?_⟩
  simp only [mixedAxes, Layer.Everywhere, Layer.Within]
  decide +kernel

end Schedule

end StabilizerLayers
