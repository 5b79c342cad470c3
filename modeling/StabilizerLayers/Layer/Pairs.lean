import StabilizerLayers.Instruction
import StabilizerLayers.QubitMap
import StabilizerLayers.SortByKey

/-!
# Two-qubit entries

The entries of layers that act on pairs of qubits: controlled Paulis, square
roots of Pauli products, and exchanges. Each kind has one order in which it is
written, whatever order its layer holds:

* a controlled Pauli puts the operand of lower rank first, the smaller qubit
  first between equal ranks, and the pairs follow by ranks and then by qubits;
* a square root puts the smaller qubit first, and the pairs follow by rank,
  direction and qubits;
* exchanges put the smaller qubit first and follow by qubits.
-/

namespace StabilizerLayers

/-- One operand of a controlled Pauli. -/
structure Leg where
  id : Qubit
  basis : Basis
deriving DecidableEq, Repr

/-- A controlled Pauli on two qubits. -/
structure Coupling where
  first : Leg
  second : Leg
deriving DecidableEq, Repr

namespace Coupling

/-- The same coupling with its operands exchanged. -/
def reversed (coupling : Coupling) : Coupling := ⟨coupling.second, coupling.first⟩

/-- Both qubits. -/
def qubits (coupling : Coupling) : List Qubit := [coupling.first.id, coupling.second.id]

/-- Whether both operands couple along Z. -/
def isZ (coupling : Coupling) : Bool :=
  coupling.first.basis == .Z && coupling.second.basis == .Z

/-- Whether the operands stand in the wrong order for writing. -/
def isBackward (coupling : Coupling) : Bool :=
  let (first, second) := (coupling.first, coupling.second)
  second.basis.rank < first.basis.rank ||
    (first.basis.rank == second.basis.rank && second.id < first.id)

/-- The operands in writing order. -/
def canonical (coupling : Coupling) : Coupling :=
  if coupling.isBackward then coupling.reversed else coupling

/-- Place of a coupling among others. -/
def key (coupling : Coupling) : List Nat :=
  [coupling.first.basis.rank, coupling.second.basis.rank,
    coupling.first.id.toNat, coupling.second.id.toNat]

/-- The gate that performs the coupling. -/
def gate (coupling : Coupling) : Gate :=
  .controlled coupling.first.basis coupling.second.basis

/-- The same qubits coupled along Z. -/
def toZ (coupling : Coupling) : Coupling :=
  ⟨⟨coupling.first.id, .Z⟩, ⟨coupling.second.id, .Z⟩⟩

/-- The instruction with a gate on both qubits in order. -/
def instruction (coupling : Coupling) (gate : Gate) : Instruction := .onQubits gate coupling.qubits

/-- Couplings in writing order. -/
def sorted (couplings : List Coupling) : List Coupling :=
  sortByKey key (couplings.map canonical)

/-- Instructions of a layer of couplings. -/
def instructions (couplings : List Coupling) : List Instruction :=
  (sorted couplings).map fun coupling => coupling.instruction coupling.gate

/-- The gate that performs a coupling and an exchange together, where there is
    one. -/
def swapGate? (coupling : Coupling) : Option Gate :=
  match coupling.first.basis, coupling.second.basis with
  | .Z, .Z => some .czSwap
  | .Z, .X => some .cxSwap
  | _, _ => none

end Coupling

/-- Two qubits, the smaller first. -/
def smallerFirst (first second : Qubit) : Qubit × Qubit :=
  if second < first then (second, first) else (first, second)

/-- Qubits of a pair. -/
def pairQubits (pair : Qubit × Qubit) : List Qubit := [pair.1, pair.2]

/-- Place of a pair among others. -/
def pairKey (pair : Qubit × Qubit) : List Nat := [pair.1.toNat, pair.2.toNat]

/-- Pairs in ascending order. -/
def sortedPairs (pairs : List (Qubit × Qubit)) : List (Qubit × Qubit) := sortByKey pairKey pairs

/-- Instructions of a layer of exchanges with a gate. -/
def exchangeInstructions (gate : Gate) (pairs : List (Qubit × Qubit)) : List Instruction :=
  (sortedPairs pairs).map fun pair => .onQubits gate (pairQubits pair)

namespace Coupling

/-- The coupled qubits without order, the smaller first. -/
def pair (coupling : Coupling) : Qubit × Qubit :=
  smallerFirst coupling.first.id coupling.second.id

/-- Instructions of a layer of couplings that are each followed by an exchange:
    first the pairs with a gate of their own, then the other couplings, then
    their exchanges. -/
def swapInstructions (couplings : List Coupling) : List Instruction :=
  let inOrder := sorted couplings
  let generic := inOrder.filter fun coupling => coupling.swapGate?.isNone
  (inOrder.filterMap fun coupling => coupling.swapGate?.map coupling.instruction) ++
    (generic.map fun coupling => coupling.instruction coupling.gate) ++
    (generic.map fun coupling => .onQubits .swap (pairQubits coupling.pair))

/-- Whether couplings and exchanges act on exactly the same pairs. -/
def samePairs (couplings : List Coupling) (pairs : List (Qubit × Qubit)) : Bool :=
  sortedPairs (couplings.map pair) == sortedPairs pairs

end Coupling

/-- A square root of a Pauli product on two qubits, or its inverse. -/
structure SqrtPair where
  first : Qubit
  second : Qubit
  basis : Basis
  dagger : Bool
deriving DecidableEq, Repr

namespace SqrtPair

/-- Both qubits. -/
def qubits (pair : SqrtPair) : List Qubit := [pair.first, pair.second]

/-- Both qubits, the smaller first. -/
def ordered (pair : SqrtPair) : Qubit × Qubit := smallerFirst pair.first pair.second

/-- Place of a pair among others. -/
def key (pair : SqrtPair) : List Nat :=
  [pair.basis.rank, pair.dagger.toNat, pair.ordered.1.toNat, pair.ordered.2.toNat]

/-- The instruction that performs the pair. -/
def instruction (pair : SqrtPair) : Instruction :=
  .onQubits (.sqrtProduct pair.basis pair.dagger) (pairQubits pair.ordered)

/-- Instructions of a layer of square roots. -/
def instructions (pairs : List SqrtPair) : List Instruction :=
  (sortByKey key pairs).map instruction

end SqrtPair

end StabilizerLayers
