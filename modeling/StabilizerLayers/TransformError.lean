import StabilizerLayers.Layer.Basic

/-!
# Why a transformation fails

Grouping a circuit into layers, changing the layers, writing them as a circuit
and exchanging axes share one type of failure. Each cause is a constructor; the
wording is in one place.
-/

namespace StabilizerLayers

/-- Why an instruction has no counterpart. -/
inductive Unsupported where
  /-- The vocabulary does not have the gate. -/
  | unknownGate
  /-- The gate is a noise channel. -/
  | noise
  /-- A measurement or reset has a nonzero error argument. -/
  | noisyMeasurement
  /-- A target is not a qubit without inversion mark. -/
  | notPlainQubit (target : Target)
  /-- A target is not a qubit. -/
  | notQubit (target : Target)
  /-- A target is neither a Pauli operator nor a combiner. -/
  | notPauli (target : Target)
  /-- A reset has an inverted target. -/
  | invertedReset
  /-- A pair is neither two qubits nor a qubit under classical Z control. -/
  | unsupportedPair (first second : Target)
  /-- The inverse exchange with a phase has no layer. -/
  | inverseIswap
  /-- The gate has no layer. -/
  | noLayer
  /-- The gate has no counterpart with X and Z exchanged. -/
  | noFlip
  /-- The pairs of an instruction would flip to different gates. -/
  | mixedFlip
deriving DecidableEq, Repr

/-- Wording of a reason. -/
def Unsupported.message : Unsupported → String
  | unknownGate => "unknown gate"
  | noise => "noise channels are not supported"
  | noisyMeasurement => "noisy measurements are not supported"
  | notPlainQubit target => "target '" ++ target.text ++ "' is not a plain qubit"
  | notQubit target => "target '" ++ target.text ++ "' is not a qubit"
  | notPauli target => "target '" ++ target.text ++ "' is not a Pauli target"
  | invertedReset => "inverted reset target"
  | unsupportedPair first second =>
    "cannot apply to targets '" ++ first.text ++ "' and '" ++ second.text ++ "'"
  | inverseIswap => "ISWAP_DAG has no layer representation"
  | noLayer => "no layer representation"
  | noFlip => "no X/Z-flipped counterpart"
  | mixedFlip => "classically controlled and quantum pairs flip to different gates"

/-- Why a transformation fails. -/
inductive TransformError where
  /-- An instruction that was to be written is refused. -/
  | invalidInstruction (fault : InstructionError)
  /-- An instruction has no counterpart. -/
  | unsupported (instruction : Instruction) (reason : Unsupported)
  /-- A layer acts along another axis than Z where none should. -/
  | outsideZBasis (layer : Layer)
  /-- The number of optimization rounds is out of range. -/
  | invalidRounds (least most given : Nat)

/-- Wording of a failure. -/
def TransformError.message : TransformError → String
  | invalidInstruction fault => "IR error: " ++ fault.message
  | unsupported instruction reason =>
    "Unsupported instruction '" ++ instruction.text ++ "': " ++ reason.message
  | outsideZBasis layer =>
    "Internal inconsistency: " ++ layer.kind.name ++ " layer left outside the Z basis"
  | invalidRounds least most given =>
    "Invalid pass configuration: final_optimization_rounds must be between " ++ toString least ++
      " and " ++ toString most ++ ", got " ++ toString given

end StabilizerLayers
