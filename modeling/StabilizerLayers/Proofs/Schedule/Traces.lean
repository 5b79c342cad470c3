import StabilizerLayers.Proofs.Schedule.Grouped
import StabilizerLayers.Proofs.Schedule.Slots
import StabilizerLayers.Proofs.Schedule.Written

/-!
# Traces of grouped and of written schedules

Gates become layers by one table and layers become gates by another. Both are faithful
to what the gates do: a grouped circuit has the axis trace of the circuit, and the
circuit of a schedule has that of the schedule.

The schedule that is written may be any that is formed, whether grouping makes such
layers or not. It is written exactly if its detectors and observables are valid.
-/

namespace StabilizerLayers

namespace Layer

variable {layer : Layer}

/-- A well-formed layer of detectors and observables holds nothing else. -/
theorem WellFormed.holdsParities (formed : layer.WellFormed) : layer.HoldsParities := by
  cases layer with
  | parity instructions => exact formed
  | reset _ | measure _ | interact _ | interactSwap _ | swap _ | iswap _ | sqrtProduct _
  | feedback _ | rotation _ | product _ | qubitCoords _ | shiftCoords _ | empty | loop _ _ =>
    trivial

/-- Detectors and observables are written as they stand. -/
theorem Writable.paritiesValid (writable : layer.Writable) : layer.ParitiesValid := by
  cases layer with
  | parity instructions => exact writable
  | reset _ | measure _ | interact _ | interactSwap _ | swap _ | iswap _ | sqrtProduct _
  | feedback _ | rotation _ | product _ | qubitCoords _ | shiftCoords _ | empty | loop _ _ =>
    trivial

end Layer

namespace Schedule

/-- A formed schedule is written exactly if its detectors and observables are valid. -/
theorem exists_toCircuit_iff {schedule : Schedule} (formed : Layer.AllFormed schedule) :
    (∃ circuit, schedule.toCircuit = .ok circuit) ↔
      Layer.Everywhere Layer.ParitiesValid schedule := by
  have everywhere := Layer.allFormed_iff_everywhere.mp formed
  have parities : Layer.Everywhere Layer.HoldsParities schedule :=
    everywhere.imp fun _ _ here => here.holdsParities
  constructor
  · rintro ⟨circuit, written⟩
    obtain ⟨writable, -⟩ := (toCircuit_eq_ok_iff parities).mp written
    exact writable.imp fun _ _ here => Layer.Writable.paritiesValid here
  · intro valid
    have writable : Layer.Everywhere Layer.Writable schedule :=
      (everywhere.and valid).imp fun _ _ here =>
        Layer.writable_of_follows (here.1.follows here.2)
    exact ⟨schedule.operations, (toCircuit_eq_ok_iff parities).mpr ⟨writable, rfl⟩⟩

/-- Grouping and writing keep the axis trace. A grouped circuit has the trace of the
    circuit, if its instructions are valid and its product measurements are of products.
    A schedule whose layers are formed in all bodies (no qubit in two entries or twice in
    a pair, classical controls, whole products, nothing but detectors and observables
    among the parities) is written if these detectors and observables are valid, and the
    circuit has the trace of the schedule. -/
theorem trace_equivalent :
    (∀ (circuit : Circuit) (schedule : Schedule), circuit.Valid → circuit.FormsProducts →
      ofCircuit circuit = .ok schedule → circuit.trace.Equivalent schedule.trace) ∧
    (∀ schedule : Schedule, Layer.AllFormed schedule →
      ((∃ circuit, schedule.toCircuit = .ok circuit) ↔
        Layer.Everywhere Layer.ParitiesValid schedule) ∧
      ∀ circuit, schedule.toCircuit = .ok circuit →
        circuit.trace.Equivalent schedule.trace) := by
  constructor
  · intro circuit schedule valid formed grouped
    obtain ⟨-, same⟩ := standFor_ofCircuit valid formed grouped
    exact same.symm.equivalent
  · intro schedule formed
    refine ⟨exists_toCircuit_iff formed, fun circuit written => ?_⟩
    obtain ⟨-, -, same⟩ := agrees_toCircuit formed written
    exact same.equivalent

/-- A circuit whose gates reverse their operands, repeat qubits, give feedback from either
    side and measure products. -/
def mixedCircuit : Circuit :=
  [.single (.onQubits .swapCx [0, 1, 1, 2]),
    .single (.onQubits (.measureReset .Y) [0, 0]),
    .single (.on (.controlled .Y .Z) [.plain 1, .record 1, .plain 0, .plain 2]),
    .block 2 [.single (.on .measureProduct [.pauli .X 0 false, .combiner, .pauli .Z 1 true])]]

/-- A schedule with an exchange that no single gate fuses with its coupling. -/
def mixedSchedule : Schedule :=
  [.rotation (.ofList [(0, .cycleXYZ)]), .interactSwap [⟨⟨1, .Y⟩, ⟨0, .X⟩⟩, ⟨⟨3, .X⟩, ⟨2, .Z⟩⟩],
    .loop 3 [.measure [⟨2, .X, true⟩, ⟨0, .Y, false⟩], .feedback [⟨.record 1, 0, .Y⟩]],
    .parity [.on .detector [.record 2]]]

/-- The circuit keeps its trace when it is grouped, the schedule when it is written. -/
theorem trace_equivalent_mixed :
    (∃ schedule, ofCircuit mixedCircuit = .ok schedule ∧
      mixedCircuit.trace.Equivalent schedule.trace) ∧
    (∃ circuit, mixedSchedule.toCircuit = .ok circuit ∧
      circuit.trace.Equivalent mixedSchedule.trace) := by
  constructor
  · obtain ⟨schedule, grouped⟩ : ∃ schedule, ofCircuit mixedCircuit = .ok schedule :=
      exists_of_isOk (by decide +kernel)
    exact ⟨schedule, grouped, trace_equivalent.1 mixedCircuit schedule (by decide +kernel)
      (by decide +kernel) grouped⟩
  · have formed : Layer.AllFormed mixedSchedule := by
      simp only [mixedSchedule, Layer.AllFormed, Layer.Formed, Layer.WellFormed, Layer.touched]
      decide
    obtain ⟨circuit, written⟩ : ∃ circuit, mixedSchedule.toCircuit = .ok circuit :=
      (trace_equivalent.2 mixedSchedule formed).1.mpr (by
        simp only [mixedSchedule, Layer.Everywhere, Layer.Within, Layer.ParitiesValid]
        decide)
    exact ⟨circuit, written, (trace_equivalent.2 mixedSchedule formed).2 circuit written⟩

end Schedule

end StabilizerLayers
