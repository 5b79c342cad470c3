import Mathlib.Data.List.SplitBy
import StabilizerLayers.Circuit.Basic
import StabilizerLayers.Proofs.Trace.Action

/-!
# Circuits and schedules as actions

Both a circuit and a schedule stand for a list of actions, with every repetition
written out. A circuit is read instruction by instruction and target by target:
a gate that measures and resets does both to one target before it turns to the
next. A schedule is read layer by layer. Ticks and coordinates do nothing, and
neither do instructions that no schedule has a layer for.

The axis trace of a circuit or a schedule is where its actions lead from the start
and the events they leave. Traces are compared by their final wires and frames, and by
their events on every wire and among the records.
-/

namespace StabilizerLayers

/-! ### Products -/

/-- Whether two neighbouring targets belong to one product. -/
def Target.joins (earlier later : Target) : Bool := earlier == .combiner || later == .combiner

/-- The targets of a product measurement, cut where no combiner joins them. -/
def products (targets : List Target) : List (List Target) := targets.splitBy Target.joins

/-- Whether targets are Pauli operators with one combiner between any two. -/
def isProduct : List Target → Bool
  | [.pauli _ _ _] => true
  | .pauli _ _ _ :: .combiner :: rest => isProduct rest
  | _ => false

/-- Whether the targets of a product measurement are products side by side. -/
def FormsProducts (targets : List Target) : Prop :=
  ∀ factors ∈ products targets, isProduct factors = true

instance : DecidablePred FormsProducts := fun targets =>
  inferInstanceAs (Decidable (∀ factors ∈ products targets, isProduct factors = true))

/-! ### Circuits -/

namespace Instruction

/-- Pairs of qubits among the targets. -/
def qubitPairs (instruction : Instruction) : List (Qubit × Qubit) :=
  instruction.targetPairs.filterMap fun
    | (.qubit id _, .qubit other _) => some (id, other)
    | _ => none

/-- A controlled Pauli on a target pair. A classical bit makes it feedback on the
    other target. -/
def controlledActions (first second : Basis) : Target × Target → List Action
  | (.qubit id _, .qubit other _) => [.couple ⟨⟨id, first⟩, ⟨other, second⟩⟩]
  | (control, .qubit id _) => [.feedback ⟨control, id, second⟩]
  | (.qubit id _, control) => [.feedback ⟨control, id, first⟩]
  | _ => []

/-- Actions of a gate of the vocabulary on the targets of an instruction. -/
def gateActions (instruction : Instruction) : Gate → List Action
  | .reset axis => instruction.targets.flatMap fun
    | .qubit id _ => [.reset id axis]
    | _ => []
  | .measure axis => instruction.targets.flatMap fun
    | .qubit id inverted => [.measure ⟨id, axis, inverted⟩]
    | _ => []
  | .measureReset axis => instruction.targets.flatMap fun
    | .qubit id inverted => [.measure ⟨id, axis, inverted⟩, .reset id axis]
    | _ => []
  | .measureProduct => (products instruction.targets).map .product
  | .detector | .observableInclude => [.parity instruction]
  | .controlled first second =>
    instruction.targetPairs.flatMap (controlledActions first second)
  | .swap => instruction.qubitPairs.map fun (id, other) => .exchange id other
  | .iswap => instruction.qubitPairs.map fun (id, other) => .iswap id other
  | .sqrtProduct axis dagger =>
    instruction.qubitPairs.map fun (id, other) => .sqrtProduct ⟨id, other, axis, dagger⟩
  | .cxSwap => instruction.qubitPairs.flatMap fun (id, other) =>
    [.couple ⟨⟨id, .Z⟩, ⟨other, .X⟩⟩, .exchange id other]
  | .swapCx => instruction.qubitPairs.flatMap fun (id, other) =>
    [.exchange id other, .couple ⟨⟨id, .Z⟩, ⟨other, .X⟩⟩]
  | .czSwap => instruction.qubitPairs.flatMap fun (id, other) =>
    [.couple ⟨⟨id, .Z⟩, ⟨other, .Z⟩⟩, .exchange id other]
  | gate =>
    match gate.rotation? with
    | some rotation => instruction.targets.flatMap fun
      | .qubit id _ => [.rotate id rotation]
      | _ => []
    | none => []

/-- Actions of an instruction, target by target. -/
def actions (instruction : Instruction) : List Action :=
  match instruction.gate? with
  | some gate => instruction.gateActions gate
  | none => []

end Instruction

/-- Some actions a number of times in a row. -/
def repeated (times : Nat) (actions : List Action) : List Action :=
  (List.replicate times actions).flatten

mutual

/-- Actions of one operation, repetitions written out. -/
def Operation.actions : Operation → List Action
  | .single instruction => instruction.actions
  | .block repetitions body => repeated repetitions.toNat (Operation.actionsAll body)

/-- Actions of operations in order. -/
def Operation.actionsAll : List Operation → List Action
  | [] => []
  | first :: rest => first.actions ++ Operation.actionsAll rest

end

mutual

/-- Instructions of one operation, those of a body once. -/
def Operation.instructions : Operation → List Instruction
  | .single instruction => [instruction]
  | .block _ body => Operation.instructionsAll body

/-- Instructions of a list of operations, those of a body once. -/
def Operation.instructionsAll : List Operation → List Instruction
  | [] => []
  | first :: rest => first.instructions ++ Operation.instructionsAll rest

end

namespace Instruction

/-- Whether a product measurement is one of products side by side. Other
    instructions measure no products. -/
def FormsProducts (instruction : Instruction) : Prop :=
  instruction.gate? = some .measureProduct → StabilizerLayers.FormsProducts instruction.targets

instance : DecidablePred FormsProducts := fun instruction =>
  inferInstanceAs (Decidable (instruction.gate? = some .measureProduct →
    StabilizerLayers.FormsProducts instruction.targets))

end Instruction

namespace Circuit

/-- Actions of a circuit, repetitions written out. -/
def actions (circuit : Circuit) : List Action := Operation.actionsAll circuit

/-- Whether every instruction, in blocks too, passes its check. -/
def Valid (circuit : Circuit) : Prop :=
  ∀ instruction ∈ Operation.instructionsAll circuit, instruction.validate = .ok ()

instance : DecidablePred Valid := fun circuit =>
  inferInstanceAs (Decidable (∀ instruction ∈ Operation.instructionsAll circuit,
    instruction.validate = .ok ()))

/-- Whether every product measurement, in blocks too, is one of products. -/
def FormsProducts (circuit : Circuit) : Prop :=
  ∀ instruction ∈ Operation.instructionsAll circuit, instruction.FormsProducts

instance : DecidablePred FormsProducts := fun circuit =>
  inferInstanceAs (Decidable (∀ instruction ∈ Operation.instructionsAll circuit,
    instruction.FormsProducts))

end Circuit

/-! ### Schedules -/

/-- Rotations of qubits one after the other. -/
def turns (entries : List (Qubit × Rotation)) : List Action :=
  entries.map fun entry => .rotate entry.1 entry.2

namespace Layer

/-- A coupling and then an exchange of its qubits. -/
def coupleSwap (coupling : Coupling) : List Action :=
  [.couple coupling, .exchange coupling.first.id coupling.second.id]

mutual

/-- Actions of a layer in the order in which it holds its entries. -/
def actions : Layer → List Action
  | reset targets => targets.entries.map fun (id, basis) => .reset id basis
  | measure targets => targets.map .measure
  | interact couplings => couplings.map .couple
  | interactSwap couplings => couplings.flatMap coupleSwap
  | swap pairs => pairs.map fun (id, other) => .exchange id other
  | iswap pairs => pairs.map fun (id, other) => .iswap id other
  | sqrtProduct pairs => pairs.map .sqrtProduct
  | feedback entries => entries.map .feedback
  | rotation rotations => turns rotations.rotations.entries
  | product targets => (products targets).map .product
  | parity instructions => instructions.map .parity
  | qubitCoords _ | shiftCoords _ | empty => []
  | loop repetitions body => repeated repetitions.toNat (actionsAll body)

/-- Actions of layers in time order. -/
def actionsAll : List Layer → List Action
  | [] => []
  | first :: rest => first.actions ++ actionsAll rest

end

end Layer

/-- Actions of a schedule, repetitions written out. -/
def Schedule.actions (schedule : Schedule) : List Action := Layer.actionsAll schedule

/-! ### Traces -/

/-- Where a circuit leads and what it leaves on the way. -/
structure Trace where
  placement : Placement
  events : List Event

/-- The axis trace of a circuit. -/
def Circuit.trace (circuit : Circuit) : Trace where
  placement := Placement.start.after circuit.actions
  events := Placement.start.events circuit.actions

/-- The axis trace of a schedule. -/
def Schedule.trace (schedule : Schedule) : Trace where
  placement := Placement.start.after schedule.actions
  events := Placement.start.events schedule.actions

/-- Whether two traces tell the same: they end with the same wires and frames,
    every wire sees the same events in order, and so do the records. -/
structure Trace.Equivalent (first second : Trace) : Prop where
  wires : first.placement.wire = second.placement.wire
  frames : first.placement.frame = second.placement.frame
  onWire : ∀ wire, first.events.filter (Event.names wire) = second.events.filter (Event.names wire)
  recordOrder : first.events.filter Event.isRecord = second.events.filter Event.isRecord

/-! ### Records -/

/-- One entry of the record stream: a measured qubit with its inversion mark, the
    targets of a measured product, or a detector or observable as it stands. -/
inductive Record where
  | measured (id : Qubit) (inverted : Bool)
  | product (factors : List Target)
  | parity (instruction : Instruction)

/-- The entry of the record stream that an action makes. -/
def Action.record? : Action → Option Record
  | measure target => some (.measured target.id target.inverted)
  | product factors => some (.product factors)
  | parity instruction => some (.parity instruction)
  | _ => none

/-- The record stream of some actions. -/
def records (actions : List Action) : List Record := actions.filterMap Action.record?

/-- Actions one behind the other have the records of both. -/
@[simp]
theorem records_append (first second : List Action) :
    records (first ++ second) = records first ++ records second :=
  List.filterMap_append

/-- The record stream of a circuit, in order of execution. -/
def Circuit.records (circuit : Circuit) : List Record := StabilizerLayers.records circuit.actions

end StabilizerLayers
