import StabilizerLayers.Rotation

/-!
# Gates

The vocabulary of the circuit language. Families that differ only in the axis
they act along are one constructor with that axis as its argument, so a
question such as "which axes does this gate couple?" is answered by the
constructor itself.

A name resolves without regard to letter case, and a few gates have a second
name. Every gate is found again under its own name.
-/

namespace StabilizerLayers

/-- The instructions with a fixed meaning. -/
inductive Gate where
  /-- Boundary between two timing slots. -/
  | tick
  /-- Coordinates of a qubit. -/
  | qubitCoords
  /-- A parity of measurement records. -/
  | detector
  /-- Records and Paulis that belong to a logical observable. -/
  | observableInclude
  /-- Offset of later coordinates. -/
  | shiftCoords
  /-- The identity gate. -/
  | identity
  /-- A Pauli gate. -/
  | pauli (axis : Basis)
  /-- A Hadamard-like gate that fixes one axis and exchanges the other two. -/
  | exchange (fixed : Basis)
  /-- A square root of a Pauli gate, or its inverse. -/
  | sqrtPauli (axis : Basis) (dagger : Bool)
  /-- The axis cycle X to Y to Z to X. -/
  | cycleXYZ
  /-- The axis cycle Z to Y to X to Z. -/
  | cycleZYX
  /-- Reset along an axis. -/
  | reset (axis : Basis)
  /-- Measurement along an axis. -/
  | measure (axis : Basis)
  /-- Measurement followed by a reset along the same axis. -/
  | measureReset (axis : Basis)
  /-- Measurement of Pauli products. -/
  | measureProduct
  /-- A controlled Pauli: the first qubit couples along `first`, the second
      along `second`. -/
  | controlled (first second : Basis)
  /-- Exchange of two qubits. -/
  | swap
  /-- Exchange of two qubits with a phase. -/
  | iswap
  /-- Inverse of the exchange with a phase. -/
  | iswapDag
  /-- A square root of a two-qubit Pauli product, or its inverse. -/
  | sqrtProduct (axis : Basis) (dagger : Bool)
  /-- Controlled X followed by an exchange. -/
  | cxSwap
  /-- An exchange followed by a controlled X. -/
  | swapCx
  /-- Controlled Z followed by an exchange. -/
  | czSwap
  /-- A random Pauli flip along an axis. -/
  | pauliError (axis : Basis)
  /-- Uniform single-qubit noise. -/
  | depolarize1
  /-- Uniform two-qubit noise. -/
  | depolarize2
  /-- Single-qubit noise with a weight per Pauli. -/
  | pauliChannel1
  /-- Two-qubit noise with a weight per Pauli pair. -/
  | pauliChannel2
  /-- A correlated error on several qubits. -/
  | correlatedError
  /-- A correlated error that happens only if the one before it did not. -/
  | elseCorrelatedError
deriving DecidableEq, Repr

/-- How a gate groups its targets. -/
inductive TargetShape where
  /-- Independent single qubits. -/
  | single
  /-- Consecutive pairs. -/
  | pair
  /-- A list whose rules depend on the gate. -/
  | free
  /-- No targets at all. -/
  | none
deriving DecidableEq, Repr

namespace Gate

/-- The name under which a gate is written. -/
def name : Gate → String
  | tick => "TICK"
  | qubitCoords => "QUBIT_COORDS"
  | detector => "DETECTOR"
  | observableInclude => "OBSERVABLE_INCLUDE"
  | shiftCoords => "SHIFT_COORDS"
  | identity => "I"
  | pauli .X => "X"
  | pauli .Y => "Y"
  | pauli .Z => "Z"
  | exchange .Y => "H"
  | exchange .Z => "H_XY"
  | exchange .X => "H_YZ"
  | sqrtPauli .X false => "SQRT_X"
  | sqrtPauli .X true => "SQRT_X_DAG"
  | sqrtPauli .Y false => "SQRT_Y"
  | sqrtPauli .Y true => "SQRT_Y_DAG"
  | sqrtPauli .Z false => "S"
  | sqrtPauli .Z true => "S_DAG"
  | cycleXYZ => "C_XYZ"
  | cycleZYX => "C_ZYX"
  | reset .X => "RX"
  | reset .Y => "RY"
  | reset .Z => "R"
  | measure .X => "MX"
  | measure .Y => "MY"
  | measure .Z => "M"
  | measureReset .X => "MRX"
  | measureReset .Y => "MRY"
  | measureReset .Z => "MR"
  | measureProduct => "MPP"
  | controlled .X .X => "XCX"
  | controlled .X .Y => "XCY"
  | controlled .X .Z => "XCZ"
  | controlled .Y .X => "YCX"
  | controlled .Y .Y => "YCY"
  | controlled .Y .Z => "YCZ"
  | controlled .Z .X => "CX"
  | controlled .Z .Y => "CY"
  | controlled .Z .Z => "CZ"
  | swap => "SWAP"
  | iswap => "ISWAP"
  | iswapDag => "ISWAP_DAG"
  | sqrtProduct .X false => "SQRT_XX"
  | sqrtProduct .X true => "SQRT_XX_DAG"
  | sqrtProduct .Y false => "SQRT_YY"
  | sqrtProduct .Y true => "SQRT_YY_DAG"
  | sqrtProduct .Z false => "SQRT_ZZ"
  | sqrtProduct .Z true => "SQRT_ZZ_DAG"
  | cxSwap => "CXSWAP"
  | swapCx => "SWAPCX"
  | czSwap => "CZSWAP"
  | pauliError .X => "X_ERROR"
  | pauliError .Y => "Y_ERROR"
  | pauliError .Z => "Z_ERROR"
  | depolarize1 => "DEPOLARIZE1"
  | depolarize2 => "DEPOLARIZE2"
  | pauliChannel1 => "PAULI_CHANNEL_1"
  | pauliChannel2 => "PAULI_CHANNEL_2"
  | correlatedError => "E"
  | elseCorrelatedError => "ELSE_CORRELATED_ERROR"

/-- Every gate, in the order of the listing of the vocabulary. -/
def all : List Gate :=
  [tick, qubitCoords, detector, observableInclude, shiftCoords,
   identity, pauli .X, pauli .Y, pauli .Z,
   exchange .Y, exchange .Z, exchange .X,
   sqrtPauli .Z false, sqrtPauli .Z true, sqrtPauli .X false, sqrtPauli .X true,
   sqrtPauli .Y false, sqrtPauli .Y true,
   cycleXYZ, cycleZYX,
   reset .Z, reset .X, reset .Y,
   measure .Z, measure .X, measure .Y,
   measureReset .Z, measureReset .X, measureReset .Y,
   measureProduct,
   controlled .Z .X, controlled .Z .Y, controlled .Z .Z,
   controlled .X .X, controlled .X .Y, controlled .X .Z,
   controlled .Y .X, controlled .Y .Y, controlled .Y .Z,
   swap, iswap, iswapDag,
   sqrtProduct .X false, sqrtProduct .X true, sqrtProduct .Y false, sqrtProduct .Y true,
   sqrtProduct .Z false, sqrtProduct .Z true,
   cxSwap, swapCx, czSwap,
   pauliError .X, pauliError .Y, pauliError .Z,
   depolarize1, depolarize2, pauliChannel1, pauliChannel2,
   correlatedError, elseCorrelatedError]

/-- Position of a gate in the listing of the vocabulary. -/
def index (gate : Gate) : Nat := all.idxOf gate

/-- Second names, in upper case. -/
def aliases : List (String × Gate) :=
  [("CNOT", controlled .Z .X), ("ZCX", controlled .Z .X), ("ZCY", controlled .Z .Y),
   ("ZCZ", controlled .Z .Z), ("H_XZ", exchange .Y), ("SQRT_Z", sqrtPauli .Z false),
   ("SQRT_Z_DAG", sqrtPauli .Z true), ("RZ", reset .Z), ("MZ", measure .Z),
   ("MRZ", measureReset .Z), ("SWAPCZ", czSwap), ("CORRELATED_ERROR", correlatedError)]

/-- The gate with a name or second name, in any letter case. Only ASCII letters
    have a case here. -/
def ofName? (text : String) : Option Gate :=
  let upper := text.toUpper
  (aliases.lookup upper).or (all.find? fun gate => gate.name == upper)

/-- Grouping of a gate's targets. -/
def shape : Gate → TargetShape
  | tick => .none
  | qubitCoords | detector | observableInclude | shiftCoords | measureProduct
  | correlatedError | elseCorrelatedError => .free
  | controlled _ _ | swap | iswap | iswapDag | sqrtProduct _ _ | cxSwap | swapCx | czSwap
  | depolarize2 | pauliChannel2 => .pair
  | _ => .single

/-- Whether a gate only carries metadata and never acts on a qubit. -/
def isMetadata : Gate → Bool
  | qubitCoords | detector | observableInclude | shiftCoords => true
  | _ => false

/-- Whether two adjacent instructions of this gate with equal arguments mean the
    same as one instruction with both target lists. -/
def isFusable : Gate → Bool
  | tick | correlatedError | elseCorrelatedError => false
  | gate => !gate.isMetadata

/-- Whether a gate is a noise channel. -/
def isNoise : Gate → Bool
  | pauliError _ | depolarize1 | depolarize2 | pauliChannel1 | pauliChannel2
  | correlatedError | elseCorrelatedError => true
  | _ => false

/-- Axis of a single-qubit measurement. -/
def measurementBasis? : Gate → Option Basis
  | measure axis | measureReset axis => some axis
  | _ => none

/-- Axis of a reset. -/
def resetBasis? : Gate → Option Basis
  | reset axis | measureReset axis => some axis
  | _ => none

/-- Axes of a controlled Pauli, first operand first. -/
def controlledBases? : Gate → Option (Basis × Basis)
  | controlled first second => some (first, second)
  | _ => none

/-- Axis and direction of a square root of a Pauli product. -/
def sqrtProduct? : Gate → Option (Basis × Bool)
  | sqrtProduct axis dagger => some (axis, dagger)
  | _ => none

/-- Whether a gate adds measurement records. -/
def producesRecords (gate : Gate) : Bool :=
  gate.measurementBasis?.isSome || gate == measureProduct

/-- The rotation a single-qubit Clifford gate performs. A Pauli gate rotates
    nothing, and a square root of a Pauli exchanges the two other axes. -/
def rotation? : Gate → Option Rotation
  | identity | pauli _ => some .identity
  | exchange fixed => some (.exchange fixed)
  | sqrtPauli axis _ => some (.exchange axis)
  | cycleXYZ => some .cycleXYZ
  | cycleZYX => some .cycleZYX
  | _ => none

/-- The listing leaves no gate out. -/
theorem mem_all : ∀ gate : Gate, gate ∈ all
  | pauli axis | exchange axis | reset axis | measure axis | measureReset axis
  | pauliError axis => by cases axis <;> decide
  | sqrtPauli axis dagger | sqrtProduct axis dagger => by
    cases axis <;> cases dagger <;> decide
  | controlled first second => by cases first <;> cases second <;> decide
  | tick | qubitCoords | detector | observableInclude | shiftCoords | identity | cycleXYZ
  | cycleZYX | measureProduct | swap | iswap | iswapDag | cxSwap | swapCx | czSwap
  | depolarize1 | depolarize2 | pauliChannel1 | pauliChannel2 | correlatedError
  | elseCorrelatedError => by decide

/-- Every gate is found under its own name. -/
theorem ofName?_name (gate : Gate) : ofName? gate.name = some gate := by
  have found : ∀ listed ∈ all, ofName? listed.name = some listed := by decide +kernel
  exact found gate (mem_all gate)

end Gate

namespace Rotation

/-- The gate that performs a rotation, and nothing for the identity. -/
def gate? : Rotation → Option Gate
  | identity => none
  | exchange fixed => some (.exchange fixed)
  | cycleXYZ => some .cycleXYZ
  | cycleZYX => some .cycleZYX

/-- The name of a rotation is that of its gate. -/
def name (rotation : Rotation) : String :=
  match rotation.gate? with
  | some gate => gate.name
  | none => Gate.identity.name

/-- The rotation with a name. -/
def ofName? (text : String) : Option Rotation :=
  all.find? fun rotation => rotation.name == text

end Rotation

end StabilizerLayers
