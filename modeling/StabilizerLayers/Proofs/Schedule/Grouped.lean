import StabilizerLayers.Proofs.Schedule.GateLayers
import StabilizerLayers.Proofs.Schedule.Rewriting

/-!
# Grouped circuits

Grouping adds the layers of one operation after the other, and merges a layer
with the latest one where both can share a slot. Merging is a rewriting, so the
schedule grouped so far always stands for the operations read so far.
-/

namespace StabilizerLayers

namespace Grouping

/-- Nothing grouped stands for nothing done. -/
theorem standFor_start : StandFor start.schedule [] := StandFor.nil

/-- Adding layers in order is a rewriting. -/
theorem rewrites_pushAll (grouping : Grouping) (layers : List Layer) :
    Rewrites Layer.WellFormed (grouping.schedule ++ layers) (grouping.pushAll layers).schedule :=
  Rewrites.compatible.groupingPushAll Layer.sufficient_wellFormed.rewrites_absorb? grouping layers

/-- Closing a slot is a rewriting. -/
theorem rewrites_tick (grouping : Grouping) :
    Rewrites Layer.WellFormed grouping.schedule grouping.tick.schedule := by
  have idle : Rewrites Layer.WellFormed [] [.empty] := fun _ => ⟨⟨trivial, trivial⟩, .refl _⟩
  exact Rewrites.compatible.groupingTick idle grouping

/-- An instruction extends what a grouping stands for. -/
theorem standFor_instruction {grouping next : Grouping} {instruction : Instruction}
    {actions : List Action} (stands : StandFor grouping.schedule actions)
    (valid : instruction.validate = .ok ()) (formed : instruction.FormsProducts)
    (read : grouping.instruction instruction = .ok next) :
    StandFor next.schedule (actions ++ instruction.actions) := by
  rw [Grouping.instruction] at read
  split at read
  · rename_i ticks
    obtain rfl := Except.ok.inj read
    have applied : instruction.gate? = some .tick := by simpa [Instruction.applies] using ticks
    have nothing : instruction.actions = [] := by
      rw [Instruction.actions, applied]
      rfl
    rw [nothing, List.append_nil]
    exact stands.rewrite (rewrites_tick grouping)
  · cases made : instruction.layers with
    | error fault => simp [made, Except.map] at read
    | ok layers =>
      obtain rfl : grouping.pushAll layers = next := by simpa [made, Except.map] using read
      have added := stands.append (Instruction.standFor_layers valid formed made)
      exact added.rewrite (rewrites_pushAll grouping layers)

mutual

/-- An operation extends what a grouping stands for. -/
theorem standFor_operation {grouping next : Grouping} {operation : Operation}
    {actions : List Action} (stands : StandFor grouping.schedule actions)
    (valid : ∀ instruction ∈ operation.instructions, instruction.validate = .ok ())
    (formed : ∀ instruction ∈ operation.instructions, instruction.FormsProducts)
    (read : grouping.operation operation = .ok next) :
    StandFor next.schedule (actions ++ operation.actions) := by
  cases operation with
  | single instruction =>
    exact standFor_instruction stands (valid instruction (List.mem_singleton.mpr rfl))
      (formed instruction (List.mem_singleton.mpr rfl)) read
  | block repetitions body =>
    rw [Grouping.operation] at read
    cases grouped : operations start body with
    | error fault => simp [grouped] at read
    | ok inner =>
      obtain rfl : grouping.pushLoop repetitions inner.schedule = next := by
        simpa [grouped] using read
      obtain ⟨bodyFormed, same⟩ := standFor_operations standFor_start valid formed grouped
      have looped : StandFor [.loop repetitions inner.schedule]
          (Operation.block repetitions body).actions :=
        StandFor.single bodyFormed (same.repeated repetitions.toNat)
      simpa [pushLoop, schedule] using stands.append looped

/-- Operations extend what a grouping stands for. -/
theorem standFor_operations {grouping next : Grouping} {circuit : List Operation}
    {actions : List Action} (stands : StandFor grouping.schedule actions)
    (valid : ∀ instruction ∈ Operation.instructionsAll circuit, instruction.validate = .ok ())
    (formed : ∀ instruction ∈ Operation.instructionsAll circuit, instruction.FormsProducts)
    (read : grouping.operations circuit = .ok next) :
    StandFor next.schedule (actions ++ Operation.actionsAll circuit) := by
  cases circuit with
  | nil =>
    obtain rfl := Except.ok.inj read
    simpa [Operation.actionsAll] using stands
  | cons first rest =>
    rw [operations] at read
    cases here : grouping.operation first with
    | error fault => simp [here] at read
    | ok middle =>
      have later : middle.operations rest = .ok next := by simpa [here] using read
      have between := standFor_operation stands
        (fun instruction member => valid instruction (List.mem_append_left _ member))
        (fun instruction member => formed instruction (List.mem_append_left _ member)) here
      have whole := standFor_operations between
        (fun instruction member => valid instruction (List.mem_append_right _ member))
        (fun instruction member => formed instruction (List.mem_append_right _ member)) later
      rwa [List.append_assoc] at whole

end

end Grouping

/-- The schedule of a valid circuit is formed and does what the circuit does. -/
theorem Schedule.standFor_ofCircuit {circuit : Circuit} {schedule : Schedule}
    (valid : circuit.Valid) (formed : circuit.FormsProducts)
    (grouped : Schedule.ofCircuit circuit = .ok schedule) : StandFor schedule circuit.actions := by
  rw [Schedule.ofCircuit] at grouped
  cases read : Grouping.start.operations circuit with
  | error fault => simp [read, Except.map] at grouped
  | ok grouping =>
    obtain rfl : grouping.schedule = schedule := by simpa [read, Except.map] using grouped
    exact Grouping.standFor_operations Grouping.standFor_start valid formed read

end StabilizerLayers
