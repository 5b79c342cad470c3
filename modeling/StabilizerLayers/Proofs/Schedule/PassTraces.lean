import StabilizerLayers.Proofs.Schedule.Rewriting
import StabilizerLayers.Proofs.Schedule.SingleUse

/-!
# Traces of swept and of rolled schedules

A sweep, and rolling rotations out of loops, keep the axis trace of a schedule. The
schedule may have any origin; all that is asked is that its layers use each qubit once,
at every loop depth, and that product measurements are of whole products. Exchanges
cancel and fuse because of the former, and products stay apart when their layers are
merged because of the latter.

Rolling sweeps every body twice on its way, so it asks for the same.
-/

namespace StabilizerLayers

namespace Layer

/-- A layer that uses each qubit once names none twice. -/
theorem UsesOnce.namesOnce {layer : Layer} (once : layer.UsesOnce) : layer.NamesOnce := by
  rw [usesOnce_iff] at once
  cases layer with
  | measure _ =>
    simpa [units, NamesOnce, touched, ← List.flatMap_def, ← List.map_eq_flatMap] using once
  | interact _ | interactSwap _ | swap _ | iswap _ | sqrtProduct _ =>
    rwa [units, ← List.flatMap_def] at once
  | reset _ | feedback _ | rotation _ | product _ | parity _ | qubitCoords _ | shiftCoords _
  | empty | loop _ _ => trivial

/-- Holding whole products survives every pass. -/
theorem stable_holdsProducts : Stable HoldsProducts where
  empty := trivial
  rotation _ := trivial
  absorb found here there := by
    cases absorbs_of_absorb? found with
    | product _ => exact FormsProducts.append here there
    | reset _ | measure _ | interact _ | interactSwap _ | swap _ | iswap _ | sqrtProduct _
    | feedback _ | rotation _ _ | parity _ _ | qubitCoords _ _ | shiftCoords _ _ => trivial
  feedback _ _ _ := trivial
  interactSwap _ := trivial
  swapInteract _ := trivial
  swaps _ _ _ := trivial
  zForm {layer} flat here := by
    fun_cases Layer.zForm layer with
    | case1 | case7 => exact ⟨(within_of_flat flat).mpr here, trivial⟩
    | case2 | case3 | case4 | case5 | case6 =>
      exact everywhere_between (fun _ => trivial) _ _ trivial
  coords _ := trivial

/-- To use each qubit once and to hold whole products is what the passes rely on. -/
theorem sufficient_usesOnce :
    Sufficient fun layer => layer.UsesOnce ∧ layer.HoldsProducts where
  toStable := stable_usesOnce.and stable_holdsProducts
  namesOnce form := form.1.namesOnce
  holdsProducts form := form.2

end Layer

namespace Schedule

/-- A rewriting of a schedule with the form that it asks for has the trace of the schedule. -/
theorem equivalent_of_rewrites {form : Layer → Prop} {schedule other : Schedule}
    (rewrites : Rewrites form schedule other) (everywhere : Layer.Everywhere form schedule) :
    other.trace.Equivalent schedule.trace :=
  (rewrites everywhere).2.equivalent

/-! ### Sweeps -/

/-- A sweep keeps the axis trace of a schedule whose layers use each qubit once and hold
    whole products, at every loop depth. -/
theorem trace_sweep {schedule : Schedule} (once : Layer.Everywhere Layer.UsesOnce schedule)
    (whole : Layer.Everywhere Layer.HoldsProducts schedule) :
    schedule.sweep.trace.Equivalent schedule.trace :=
  equivalent_of_rewrites (Layer.sufficient_usesOnce.rewrites_sweep schedule) (once.and whole)

/-- A schedule whose sweep turns feedback, forgets rotations before a reset, fuses an
    exchange with a coupling, merges product measurements, and raises a rotation to a
    power. -/
def sweptSample : Schedule :=
  [.rotation (.ofList [(0, .cycleXYZ), (1, .exchange .Y)]),
    .feedback [⟨.record 1, 0, .X⟩, ⟨.sweep 3, 1, .Y⟩],
    .reset (.ofList [(1, .X)]), .swap [(0, 1)], .interact [⟨⟨1, .Y⟩, ⟨0, .Z⟩⟩], .empty,
    .loop 2 [.product [.pauli .X 0 false, .combiner, .pauli .Z 1 true],
      .product [.pauli .Y 2 false],
      .loop 5 [.rotation (.ofList [(2, .cycleZYX)])]]]

/-- Five layers are left of the seven, with the same trace. -/
theorem trace_sweep_sample :
    sweptSample.sweep.map Layer.kind =
      [.feedback, .rotation, .reset, .interactSwap, .loop] ∧
    sweptSample.sweep.trace.Equivalent sweptSample.trace := by
  refine ⟨by decide +kernel, trace_sweep ?_ ?_⟩
  · simp only [sweptSample, Layer.Everywhere, Layer.Within]
    decide +kernel
  · simp only [sweptSample, Layer.Everywhere, Layer.Within, Layer.HoldsProducts]
    decide +kernel

/-! ### Rolling -/

/-- Rolling rotations out of loops keeps the axis trace of a schedule whose layers use
    each qubit once and hold whole products, at every loop depth and however often each
    loop runs. -/
theorem trace_rollLoops {schedule : Schedule} (once : Layer.Everywhere Layer.UsesOnce schedule)
    (whole : Layer.Everywhere Layer.HoldsProducts schedule) :
    schedule.rollLoops.trace.Equivalent schedule.trace :=
  equivalent_of_rewrites (Layer.sufficient_usesOnce.rewrites_rollLoops schedule) (once.and whole)

/-- A schedule with a loop in a loop, each with a rotation to be rolled out, and a loop
    that never runs. -/
def rolledSample : Schedule :=
  [.loop 3 [.loop 2 [.measure [⟨0, .X, false⟩], .rotation (.ofList [(0, .cycleXYZ)]),
      .parity [.on .detector [.record 1]]]],
    .loop 0 [.measure [⟨1, .Z, true⟩], .rotation (.ofList [(1, .exchange .Y)])]]

/-- Rotations are rolled out of all loops, with the same trace. -/
theorem trace_rollLoops_sample :
    rolledSample.rollLoops.map Layer.kind =
      [.rotation, .loop, .rotation, .rotation, .loop, .rotation] ∧
    rolledSample.rollLoops.trace.Equivalent rolledSample.trace := by
  refine ⟨by decide +kernel, trace_rollLoops ?_ ?_⟩
  · simp only [rolledSample, Layer.Everywhere, Layer.Within]
    decide +kernel
  · simp only [rolledSample, Layer.Everywhere, Layer.Within, Layer.HoldsProducts]
    decide +kernel

end Schedule

end StabilizerLayers
