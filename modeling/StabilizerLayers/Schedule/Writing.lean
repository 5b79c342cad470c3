import StabilizerLayers.Circuit.Builder
import StabilizerLayers.Layer.Basic
import StabilizerLayers.TransformError

/-!
# Writing a schedule as a circuit

A layer is written as instructions in a fixed order, and neighbours that can be
one instruction are. A tick stands between a layer that owes one and the next
that needs one; none stands at the end. A loop body whose last slot is still
open is closed by a tick inside the block.
-/

namespace StabilizerLayers

namespace Layer

/-- Resets in writing order: along Z, X and Y, qubits ascending. -/
def resetInstructions (targets : QubitMap Basis) : List Instruction :=
  Basis.byRank.filterMap fun basis =>
    match targets.keysWhere (· == basis) with
    | [] => none
    | ids => some (.onQubits (.reset basis) ids)

/-- A measurement. -/
def measureInstruction (target : Measurement) : Instruction :=
  .on (.measure target.basis) [.qubit target.id target.inverted]

/-- Feedback, the classical bit first. -/
def feedbackInstruction (entry : Feedback) : Instruction :=
  .on (.controlled .Z entry.basis) [entry.control, .plain entry.id]

/-- Coordinates of a qubit. -/
def coordsInstruction (entry : Qubit × List Float) : Instruction :=
  ⟨.known .qubitCoords, [.plain entry.1], entry.2⟩

/-- Writes a layer other than a loop. Metadata is written as it stands; other
    instructions join their neighbour where they can. -/
def writeFlat (builder : Builder) : Layer → Except InstructionError Builder
  | reset targets => builder.fuseAll (resetInstructions targets)
  | measure targets => builder.fuseAll (targets.map measureInstruction)
  | interact couplings => builder.fuseAll (Coupling.instructions couplings)
  | interactSwap couplings => builder.fuseAll (Coupling.swapInstructions couplings)
  | swap pairs => builder.fuseAll (exchangeInstructions .swap pairs)
  | iswap pairs => builder.fuseAll (exchangeInstructions .iswap pairs)
  | sqrtProduct pairs => builder.fuseAll (SqrtPair.instructions pairs)
  | feedback entries => builder.fuseAll (entries.map feedbackInstruction)
  | rotation rotations => builder.fuseAll rotations.instructions
  | product targets => builder.fuse (.on .measureProduct targets)
  | parity instructions => builder.appendAll instructions
  | qubitCoords coordinates => builder.appendAll (coordinates.entries.map coordsInstruction)
  | shiftCoords shift => builder.append ⟨.known .shiftCoords, [], shift⟩
  | empty | loop _ _ => .ok builder

/-- Writes a tick if one is owed and the layer needs it. -/
def writeTick (builder : Builder) (owed : Bool) (layer : Layer) :
    Except InstructionError Builder :=
  if owed && layer.needsTickBefore then builder.tick else .ok builder

mutual

/-- Writes a layer, without ticks around it. -/
def write (builder : Builder) : Layer → Except InstructionError Builder
  | loop repetitions body =>
    match writeAll .empty false body with
    | .error fault => .error fault
    | .ok inner =>
      if Schedule.owesTick body then
        match inner.tick with
        | .error fault => .error fault
        | .ok closed => .ok (builder.appendBlock repetitions closed.circuit)
      else .ok (builder.appendBlock repetitions inner.circuit)
  | layer => layer.writeFlat builder

/-- Writes layers with the ticks between them. -/
def writeAll (builder : Builder) (owed : Bool) : List Layer → Except InstructionError Builder
  | [] => .ok builder
  | layer :: rest =>
    match writeTick builder owed layer with
    | .error fault => .error fault
    | .ok ticked =>
      match write ticked layer with
      | .error fault => .error fault
      | .ok written =>
        writeAll written (layer.owesTick || (owed && !layer.needsTickBefore)) rest

end

/-- The circuit of a single layer. -/
def toCircuit (layer : Layer) : Except TransformError Circuit :=
  match layer.write .empty with
  | .error fault => .error (.invalidInstruction fault)
  | .ok builder => .ok builder.circuit

end Layer

/-- The circuit of a schedule. -/
def Schedule.toCircuit (schedule : Schedule) : Except TransformError Circuit :=
  match Layer.writeAll .empty false schedule with
  | .error fault => .error (.invalidInstruction fault)
  | .ok builder => .ok builder.circuit

end StabilizerLayers
