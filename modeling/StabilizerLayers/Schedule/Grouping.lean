import StabilizerLayers.Circuit.Basic
import StabilizerLayers.Layer.Neighbours
import StabilizerLayers.TransformError

/-!
# Grouping a circuit into layers

Each instruction stands for one or more layers. Between two ticks a layer joins
the latest one where both can share a slot. A tick closes the slot, and leaves
an empty layer if there was nothing in it. A block becomes a loop and closes the
slot before and after it.

The targets of an instruction may name a qubit twice; they are then split into
runs, each as long as possible without a repeated qubit.
-/

namespace StabilizerLayers

/-- Splits units into runs without a repeated qubit. `seen` and `current` belong
    to the run in progress, its units latest first. -/
def runsFrom {α : Type} (qubits : α → List Qubit) (seen : List Qubit) (current : List α) :
    List α → List (List α)
  | [] => if current.isEmpty then [] else [current.reverse]
  | unit :: rest =>
    if (qubits unit).any seen.contains then
      current.reverse :: runsFrom qubits (qubits unit) [unit] rest
    else runsFrom qubits (qubits unit ++ seen) (unit :: current) rest

/-- Splits units into the longest runs in which no qubit belongs to two units. -/
def runs {α : Type} (qubits : α → List Qubit) (units : List α) : List (List α) :=
  runsFrom qubits [] [] units

namespace Instruction

/-- Whether some argument is not zero. -/
def hasNonzeroArgument (instruction : Instruction) : Bool :=
  instruction.arguments.any fun argument => argument != 0.0

/-- A failure at this instruction. -/
def refused {α : Type} (instruction : Instruction) (reason : Unsupported) :
    Except TransformError α :=
  .error (.unsupported instruction reason)

/-- The targets as qubits without inversion mark. -/
def plainQubits (instruction : Instruction) : Except TransformError (List Qubit) :=
  instruction.targets.mapM fun target =>
    match target with
    | .qubit id false => .ok id
    | _ => instruction.refused (.notPlainQubit target)

/-- The targets as pairs of qubits without inversion mark. -/
def plainPairs (instruction : Instruction) : Except TransformError (List (Qubit × Qubit)) :=
  instruction.plainQubits.map consecutivePairs

/-- Layers of a measurement or reset; of a gate that does both, a measurement
    layer and a reset layer for each run. -/
def collapseLayers (instruction : Instruction) (measured reset : Option Basis) :
    Except TransformError (List Layer) := do
  if instruction.hasNonzeroArgument then instruction.refused .noisyMeasurement
  let targets : List (Qubit × Bool) ← instruction.targets.mapM fun target =>
    match target with
    | .qubit id inverted => .ok (id, inverted)
    | _ => instruction.refused (.notQubit target)
  if measured.isNone && targets.any (·.2) then instruction.refused .invertedReset
  return (runs (fun target => [target.1]) targets).flatMap fun run =>
    (measured.map fun basis =>
      Layer.measure (run.map fun (id, inverted) => ⟨id, basis, inverted⟩)).toList ++
    (reset.map fun basis =>
      Layer.reset (.ofList (run.map fun (id, _) => (id, basis)))).toList

/-- The part of an interaction that a target pair is. -/
inductive PairPart where
  | coupling (coupling : Coupling)
  | feedback (entry : Feedback)

/-- Reads a target pair of a controlled Pauli. A classical bit can only act as a
    Z control. -/
def pairPart (instruction : Instruction) (first second : Basis) :
    Target × Target → Except TransformError PairPart
  | (.qubit id false, .qubit other false) => .ok (.coupling ⟨⟨id, first⟩, ⟨other, second⟩⟩)
  | (one, two) =>
    let refusal := instruction.refused (.unsupportedPair one two)
    match one, two with
    | control, .qubit id false =>
      if control.isClassical && first == .Z then .ok (.feedback ⟨control, id, second⟩)
      else refusal
    | .qubit id false, control =>
      if control.isClassical && second == .Z then .ok (.feedback ⟨control, id, first⟩)
      else refusal
    | _, _ => refusal

/-- Couplings held back so far as layers, one per run. -/
def couplingLayers (latestFirst : List Coupling) : List Layer :=
  (runs Coupling.qubits latestFirst.reverse).map Layer.interact

/-- Layers of the parts of an interaction: couplings gather until a feedback
    comes, which is a layer of its own. -/
def partLayers (held : List Coupling) : List PairPart → List Layer
  | [] => couplingLayers held
  | .coupling coupling :: rest => partLayers (coupling :: held) rest
  | .feedback entry :: rest =>
    couplingLayers held ++ Layer.feedback [entry] :: partLayers [] rest

/-- Layers of a controlled Pauli. -/
def interactionLayers (instruction : Instruction) (first second : Basis) :
    Except TransformError (List Layer) :=
  (instruction.targetPairs.mapM (instruction.pairPart first second)).map (partLayers [])

/-- Cuts the targets of a product measurement into products. `product` holds the
    one in progress, latest target first; `joined` says that the next operator
    belongs to it. A combiner without an operator before it is dropped, together
    with the operator it would join. -/
def productsFrom (product : List Target) (joined : Bool) : List Target → List (List Target)
  | [] => if product.isEmpty then [] else [product.reverse]
  | .combiner :: rest =>
    productsFrom (if product.isEmpty then [] else .combiner :: product) true rest
  | target :: rest =>
    if joined then productsFrom (if product.isEmpty then [] else target :: product) false rest
    else if product.isEmpty then productsFrom [target] false rest
    else product.reverse :: productsFrom [target] false rest

/-- Layers of a product measurement, one per product. -/
def productLayers (instruction : Instruction) : Except TransformError (List Layer) :=
  if instruction.hasNonzeroArgument then instruction.refused .noisyMeasurement
  else
    match instruction.targets.find? fun target => !(target.isPauli || target == .combiner) with
    | some target => instruction.refused (.notPauli target)
    | none => .ok ((productsFrom [] false instruction.targets).map Layer.product)

/-- Layers of a gate that couples and exchanges its pairs. -/
def couplingSwapLayers (instruction : Instruction) (couple : Qubit × Qubit → Coupling) :
    Except TransformError (List Layer) :=
  instruction.plainPairs.map fun pairs =>
    (runs Coupling.qubits (pairs.map couple)).map Layer.interactSwap

/-- Layers of a gate on exchanged pairs, the smaller qubit of each first. -/
def exchangeLayers (instruction : Instruction) (build : List (Qubit × Qubit) → Layer) :
    Except TransformError (List Layer) :=
  instruction.plainPairs.map fun pairs =>
    (runs pairQubits pairs).map fun run => build (run.map fun (id, other) => smallerFirst id other)

/-- Layers of a gate of the vocabulary other than a tick. -/
def gateLayers (instruction : Instruction) : Gate → Except TransformError (List Layer)
  | .pauliError _ | .depolarize1 | .depolarize2 | .pauliChannel1 | .pauliChannel2
  | .correlatedError | .elseCorrelatedError => instruction.refused .noise
  | .detector | .observableInclude => .ok [.parity [instruction]]
  | .shiftCoords => .ok [.shiftCoords instruction.arguments]
  | .qubitCoords => instruction.plainQubits.map fun ids =>
    [.qubitCoords (.ofList (ids.map fun id => (id, instruction.arguments)))]
  | .measureProduct => instruction.productLayers
  | .swap => instruction.exchangeLayers .swap
  | .iswap => instruction.exchangeLayers .iswap
  | .iswapDag => instruction.refused .inverseIswap
  | .cxSwap => instruction.couplingSwapLayers fun (id, other) => ⟨⟨id, .Z⟩, ⟨other, .X⟩⟩
  | .swapCx => instruction.couplingSwapLayers fun (id, other) => ⟨⟨other, .Z⟩, ⟨id, .X⟩⟩
  | .czSwap => instruction.couplingSwapLayers fun (id, other) => ⟨⟨id, .Z⟩, ⟨other, .Z⟩⟩
  | .measure axis => instruction.collapseLayers (some axis) none
  | .reset axis => instruction.collapseLayers none (some axis)
  | .measureReset axis => instruction.collapseLayers (some axis) (some axis)
  | .controlled first second => instruction.interactionLayers first second
  | .sqrtProduct axis dagger => instruction.plainPairs.map fun pairs =>
    (runs SqrtPair.qubits (pairs.map fun (id, other) => ⟨id, other, axis, dagger⟩)).map
      Layer.sqrtProduct
  | gate =>
    match gate.rotation? with
    | some rotation => instruction.plainQubits.map fun ids =>
      [.rotation (.ofList (ids.map fun id => (id, rotation)))]
    | none => instruction.refused .noLayer

/-- Layers of an instruction other than a tick. -/
def layers (instruction : Instruction) : Except TransformError (List Layer) :=
  match instruction.gate? with
  | some gate => instruction.gateLayers gate
  | none => instruction.refused .unknownGate

end Instruction

/-- Layers grouped so far, latest first: those of closed slots, and those of the
    slot that is still open. -/
structure Grouping where
  closed : List Layer
  current : List Layer

namespace Grouping

/-- Nothing grouped yet. -/
def start : Grouping := ⟨[], []⟩

/-- The schedule grouped so far. -/
def schedule (grouping : Grouping) : Schedule := (grouping.current ++ grouping.closed).reverse

/-- Adds a layer to the open slot, into the latest layer if both fit together. -/
def push (grouping : Grouping) (layer : Layer) : Grouping :=
  match grouping.current with
  | [] => { grouping with current := [layer] }
  | latest :: earlier =>
    match latest.absorb? layer with
    | some both => { grouping with current := both :: earlier }
    | none => { grouping with current := layer :: latest :: earlier }

/-- Adds layers in order. -/
def pushAll (grouping : Grouping) : List Layer → Grouping
  | [] => grouping
  | first :: rest => (grouping.push first).pushAll rest

/-- Closes the open slot. -/
def tick (grouping : Grouping) : Grouping :=
  match grouping.current with
  | [] => ⟨.empty :: grouping.closed, []⟩
  | current => ⟨current ++ grouping.closed, []⟩

/-- Adds a loop, with the slots before and after it closed. -/
def pushLoop (grouping : Grouping) (repetitions : UInt64) (body : Schedule) : Grouping :=
  ⟨.loop repetitions body :: (grouping.current ++ grouping.closed), []⟩

/-- Adds an instruction. -/
def instruction (grouping : Grouping) (instruction : Instruction) :
    Except TransformError Grouping :=
  if instruction.applies .tick then .ok grouping.tick
  else instruction.layers.map grouping.pushAll

mutual

/-- Adds an operation. -/
def operation (grouping : Grouping) : Operation → Except TransformError Grouping
  | .single instruction => grouping.instruction instruction
  | .block repetitions body =>
    match operations start body with
    | .error fault => .error fault
    | .ok inner => .ok (grouping.pushLoop repetitions inner.schedule)

/-- Adds operations in order. -/
def operations (grouping : Grouping) : List Operation → Except TransformError Grouping
  | [] => .ok grouping
  | first :: rest =>
    match operation grouping first with
    | .error fault => .error fault
    | .ok next => operations next rest

end

end Grouping

/-- Groups a circuit into layers. -/
def Schedule.ofCircuit (circuit : Circuit) : Except TransformError Schedule :=
  (Grouping.start.operations circuit).map Grouping.schedule

end StabilizerLayers
