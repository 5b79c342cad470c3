import StabilizerLayers.Gate

/-!
# Targets

What an instruction acts on: qubits, Pauli operators on qubits, classical bits
(measurement records and sweep bits), and the mark that joins Pauli operators
into a product. A record is counted back from the latest measurement, so
`record 1` is written `rec[-1]`.
-/

namespace StabilizerLayers

/-- One target of an instruction. -/
inductive Target where
  /-- A qubit; an inverted one has its measurement result flipped. -/
  | qubit (id : Qubit) (inverted : Bool)
  /-- A measurement record, counted back from the latest. -/
  | record (lookback : UInt32)
  /-- A bit that varies between runs. -/
  | sweep (index : UInt32)
  /-- A Pauli operator on a qubit. -/
  | pauli (basis : Basis) (id : Qubit) (inverted : Bool)
  /-- Joins the operators before and after it into one product. -/
  | combiner
deriving DecidableEq, Repr

namespace Target

/-- A qubit that is not inverted. -/
def plain (id : Qubit) : Target := qubit id false

/-- The qubit that a target names. -/
def qubit? : Target → Option Qubit
  | qubit id _ | pauli _ id _ => some id
  | _ => none

/-- Whether the target is a qubit without an operator. -/
def isQubit : Target → Bool
  | qubit _ _ => true
  | _ => false

/-- Whether the target is a Pauli operator. -/
def isPauli : Target → Bool
  | pauli _ _ _ => true
  | _ => false

/-- Whether the target is a classical bit. -/
def isClassical : Target → Bool
  | record _ | sweep _ => true
  | _ => false

/-- Whether the target carries the inversion mark. -/
def isInverted : Target → Bool
  | qubit _ inverted | pauli _ _ inverted => inverted
  | _ => false

/-- The mark before an inverted target. -/
def inversionMark (inverted : Bool) : String := if inverted then "!" else ""

/-- Text of a target. -/
def text : Target → String
  | qubit id inverted => inversionMark inverted ++ toString id.toNat
  | record lookback => "rec[-" ++ toString lookback.toNat ++ "]"
  | sweep index => "sweep[" ++ toString index.toNat ++ "]"
  | pauli basis id inverted =>
    inversionMark inverted ++ basis.letter.toString ++ toString id.toNat
  | combiner => "*"

end Target

end StabilizerLayers
