import StabilizerLayers.Circuit.Builder
import StabilizerLayers.TransformError

/-!
# Exchanging X and Z

Every gate is replaced by its counterpart with the axes X and Z exchanged and Y
kept, and so is every Pauli operator among the targets. A few gates have no
counterpart in the vocabulary.

A classical bit under a controlled Pauli has no axis to exchange, so only the
axis of its qubit changes. All pairs of one instruction must agree on the gate
they turn into.
-/

namespace StabilizerLayers

/-- The gate with X and Z exchanged. -/
def Gate.flipped? : Gate → Option Gate
  | pauli axis => some (pauli axis.flipped)
  | exchange fixed => some (exchange fixed.flipped)
  | sqrtPauli axis dagger => some (sqrtPauli axis.flipped dagger)
  | cycleXYZ => some cycleZYX
  | cycleZYX => some cycleXYZ
  | reset axis => some (reset axis.flipped)
  | measure axis => some (measure axis.flipped)
  | measureReset axis => some (measureReset axis.flipped)
  | controlled first second => some (controlled first.flipped second.flipped)
  | sqrtProduct axis dagger => some (sqrtProduct axis.flipped dagger)
  | cxSwap => some swapCx
  | swapCx => some cxSwap
  | pauliError axis => some (pauliError axis.flipped)
  | measureProduct | iswap | iswapDag | czSwap | pauliChannel1 | pauliChannel2
  | correlatedError | elseCorrelatedError => none
  | gate => some gate

/-- The target with X and Z exchanged. -/
def Target.flipped : Target → Target
  | pauli basis id inverted => pauli basis.flipped id inverted
  | target => target

/-- The controlled Pauli that a pair turns into. The axis of a qubit changes;
    that of a classical bit across from a qubit stays. -/
def Gate.flippedPair (first second : Basis) (targets : Target × Target) : Gate :=
  match targets.1.isClassical, targets.2.isClassical with
  | true, false => controlled first second.flipped
  | false, true => controlled first.flipped second
  | _, _ => controlled first.flipped second.flipped

/-- The gate that all pairs of a controlled Pauli turn into. -/
def Gate.flippedControlled (first second : Basis) (pairs : List (Target × Target)) :
    Except Unsupported Gate :=
  match pairs.map (flippedPair first second) with
  | [] => .ok (controlled first.flipped second.flipped)
  | gate :: others => if others.all (· == gate) then .ok gate else .error .mixedFlip

/-- The instruction with X and Z exchanged. -/
def Instruction.flipped (instruction : Instruction) : Except Unsupported Instruction :=
  match instruction.gate? with
  | none => .error .unknownGate
  | some (.controlled first second) =>
    match Gate.flippedControlled first second instruction.targetPairs with
    | .ok gate => .ok { instruction with operator := .known gate }
    | .error reason => .error reason
  | some gate =>
    match gate.flipped? with
    | some flipped =>
      .ok { instruction with
        operator := .known flipped, targets := instruction.targets.map Target.flipped }
    | none => .error .noFlip

mutual

/-- Writes an operation with X and Z exchanged. -/
def Operation.writeFlipped (builder : Builder) : Operation → Except TransformError Builder
  | .single instruction =>
    match instruction.flipped with
    | .error reason => .error (.unsupported instruction reason)
    | .ok flipped =>
      match builder.append flipped with
      | .error fault => .error (.invalidInstruction fault)
      | .ok written => .ok written
  | .block repetitions body =>
    match Operation.writeFlippedAll .empty body with
    | .error fault => .error fault
    | .ok inner => .ok (builder.appendBlock repetitions inner.circuit)

/-- Writes operations with X and Z exchanged. -/
def Operation.writeFlippedAll (builder : Builder) : List Operation → Except TransformError Builder
  | [] => .ok builder
  | first :: rest =>
    match Operation.writeFlipped builder first with
    | .error fault => .error fault
    | .ok written => Operation.writeFlippedAll written rest

end

/-- The circuit with X and Z exchanged. -/
def Circuit.flipped (circuit : Circuit) : Except TransformError Circuit :=
  match Operation.writeFlippedAll .empty circuit with
  | .error fault => .error fault
  | .ok builder => .ok builder.circuit

end StabilizerLayers
