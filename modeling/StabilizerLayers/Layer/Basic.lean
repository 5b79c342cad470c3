import StabilizerLayers.Layer.Pairs
import StabilizerLayers.Layer.Rotations

/-!
# Timing layers

A layer is a group of operations of one kind that fit into one timing slot. A
schedule is a list of layers; a loop is a layer that owns a schedule as its
body.

Three kinds of layer only carry metadata. They take no time: no tick is needed
before them, and none follows from them. A loop closes its own last slot, so no
tick follows from it either.
-/

namespace StabilizerLayers

/-- Measurement of one qubit. -/
structure Measurement where
  id : Qubit
  basis : Basis
  /-- Whether the recorded result is flipped. -/
  inverted : Bool
deriving DecidableEq, Repr

/-- A Pauli on a qubit, applied if a classical bit is set. -/
structure Feedback where
  control : Target
  id : Qubit
  basis : Basis
deriving DecidableEq, Repr

/-- One timing layer. -/
inductive Layer where
  /-- Resets, at most one per qubit. -/
  | reset (targets : QubitMap Basis)
  /-- Measurements in record order. -/
  | measure (targets : List Measurement)
  /-- Controlled Paulis. -/
  | interact (couplings : List Coupling)
  /-- Controlled Paulis, each followed by an exchange of its qubits. -/
  | interactSwap (couplings : List Coupling)
  /-- Exchanges. -/
  | swap (pairs : List (Qubit × Qubit))
  /-- Exchanges with a phase. -/
  | iswap (pairs : List (Qubit × Qubit))
  /-- Square roots of Pauli products. -/
  | sqrtProduct (pairs : List SqrtPair)
  /-- Classically controlled Paulis. -/
  | feedback (entries : List Feedback)
  /-- Rotations. -/
  | rotation (rotations : RotationLayer)
  /-- Pauli product measurements in record order. -/
  | product (targets : List Target)
  /-- Detectors and observables, in order. -/
  | parity (instructions : List Instruction)
  /-- Coordinates of qubits. -/
  | qubitCoords (coordinates : QubitMap (List Float))
  /-- Offset of later coordinates. -/
  | shiftCoords (shift : List Float)
  /-- A timing slot with nothing in it. -/
  | empty
  /-- A body that runs a number of times. -/
  | loop (repetitions : UInt64) (body : List Layer)
deriving Inhabited

/-- Layers in time order. -/
abbrev Schedule := List Layer

/-- The kinds of layer. -/
inductive Layer.Kind where
  | reset
  | measure
  | interact
  | interactSwap
  | swap
  | iswap
  | sqrtProduct
  | feedback
  | rotation
  | product
  | parity
  | qubitCoords
  | shiftCoords
  | empty
  | loop
deriving DecidableEq, Repr

/-- The name of a kind. -/
def Layer.Kind.name : Layer.Kind → String
  | reset => "reset"
  | measure => "measure"
  | interact => "interact"
  | interactSwap => "interact_swap"
  | swap => "swap"
  | iswap => "iswap"
  | sqrtProduct => "sqrt_pauli_product"
  | feedback => "feedback"
  | rotation => "rotation"
  | product => "mpp"
  | parity => "det_obs_annotation"
  | qubitCoords => "qubit_coord_annotation"
  | shiftCoords => "shift_coord_annotation"
  | empty => "empty"
  | loop => "loop"

/-- The kinds by ascending name. -/
def Layer.Kind.all : List Layer.Kind :=
  [.parity, .empty, .feedback, .interact, .interactSwap, .iswap, .loop, .measure, .product,
   .qubitCoords, .reset, .rotation, .shiftCoords, .sqrtProduct, .swap]

namespace Layer

/-- The kind of a layer. -/
def kind : Layer → Kind
  | reset _ => .reset
  | measure _ => .measure
  | interact _ => .interact
  | interactSwap _ => .interactSwap
  | swap _ => .swap
  | iswap _ => .iswap
  | sqrtProduct _ => .sqrtProduct
  | feedback _ => .feedback
  | rotation _ => .rotation
  | product _ => .product
  | parity _ => .parity
  | qubitCoords _ => .qubitCoords
  | shiftCoords _ => .shiftCoords
  | empty => .empty
  | loop _ _ => .loop

/-- Qubits whose Pauli operators an observable names. -/
def parityQubits (instructions : List Instruction) : List Qubit :=
  instructions.flatMap fun instruction =>
    (instruction.targets.filter Target.isPauli).filterMap Target.qubit?

mutual

/-- Qubits that a layer reads or changes. -/
def touched : Layer → List Qubit
  | reset targets => targets.keys
  | measure targets => targets.map fun target => target.id
  | interact couplings | interactSwap couplings => couplings.flatMap Coupling.qubits
  | swap pairs | iswap pairs => pairs.flatMap pairQubits
  | sqrtProduct pairs => pairs.flatMap SqrtPair.qubits
  | feedback entries => entries.map fun entry => entry.id
  | rotation rotations => rotations.touched
  | product targets => targets.filterMap Target.qubit?
  | parity instructions => parityQubits instructions
  | qubitCoords coordinates => coordinates.keys
  | shiftCoords _ | empty => []
  | loop _ body => touchedAll body

/-- Qubits that a schedule reads or changes. -/
def touchedAll : List Layer → List Qubit
  | [] => []
  | first :: rest => touched first ++ touchedAll rest

end

/-- Whether a layer only carries metadata. -/
def isMetadata : Layer → Bool
  | parity _ | qubitCoords _ | shiftCoords _ => true
  | _ => false

/-- Whether a tick must stand between this layer and an earlier one that a tick
    follows from. -/
def needsTickBefore (layer : Layer) : Bool := !layer.isMetadata

/-- Whether a tick must come between this layer and the next that needs one. -/
def owesTick : Layer → Bool
  | loop _ _ => false
  | layer => !layer.isMetadata

/-- Whether a layer has no effect at all. -/
def isVacuous : Layer → Bool
  | reset targets => targets.isEmpty
  | measure targets => targets.isEmpty
  | interact couplings | interactSwap couplings => couplings.isEmpty
  | swap pairs | iswap pairs => pairs.isEmpty
  | sqrtProduct pairs => pairs.isEmpty
  | feedback entries => entries.isEmpty
  | rotation rotations => rotations.isVacuous
  | product targets => targets.isEmpty
  | parity instructions => instructions.isEmpty
  | qubitCoords coordinates => coordinates.isEmpty
  | shiftCoords shift => shift.all fun offset => offset == 0.0
  | empty => true
  | loop repetitions body => repetitions == 0 || body.isEmpty

mutual

/-- Whether resets, measurements and couplings all act along Z, in loops too. -/
def isCanonical : Layer → Bool
  | reset targets => targets.values.all (· == .Z)
  | measure targets => targets.all fun target => target.basis == .Z
  | interact couplings | interactSwap couplings => couplings.all Coupling.isZ
  | sqrtProduct pairs => pairs.all fun pair => pair.basis == .Z
  | loop _ body => allCanonical body
  | _ => true

/-- Whether every layer of a schedule is canonical. -/
def allCanonical : List Layer → Bool
  | [] => true
  | first :: rest => isCanonical first && allCanonical rest

end

mutual

/-- Equality of layers, with numbers compared as numbers. -/
def same : Layer → Layer → Bool
  | reset first, reset second => first == second
  | measure first, measure second => first == second
  | interact first, interact second => first == second
  | interactSwap first, interactSwap second => first == second
  | swap first, swap second => first == second
  | iswap first, iswap second => first == second
  | sqrtProduct first, sqrtProduct second => first == second
  | feedback first, feedback second => first == second
  | rotation first, rotation second => first == second
  | product first, product second => first == second
  | parity first, parity second => first == second
  | qubitCoords first, qubitCoords second => first == second
  | shiftCoords first, shiftCoords second => first == second
  | empty, empty => true
  | loop count body, loop otherCount otherBody => count == otherCount && sameAll body otherBody
  | _, _ => false

/-- Equality of schedules, layer by layer. -/
def sameAll : List Layer → List Layer → Bool
  | [], [] => true
  | first :: rest, second :: others => same first second && sameAll rest others
  | _, _ => false

end

instance : BEq Layer := ⟨same⟩

mutual

/-- Layers in one layer, a loop body counted once. -/
def size : Layer → Nat
  | loop _ body => sizeAll body + 1
  | _ => 1

/-- Layers in a schedule, loop bodies counted once. -/
def sizeAll : List Layer → Nat
  | [] => 0
  | first :: rest => size first + sizeAll rest

end

/-- Sum of two offsets, as long as the longer one. -/
def addShift : List Float → List Float → List Float
  | [], added => added.map (0.0 + ·)
  | total, [] => total
  | first :: rest, added :: others => (first + added) :: addShift rest others

/-- Coordinates moved by an offset. Coordinates beyond the offset stay. -/
def shiftedBy : (coordinates offset : List Float) → List Float
  | first :: rest, added :: others => (first + added) :: shiftedBy rest others
  | coordinates, _ => coordinates

end Layer

namespace Schedule

/-- Qubits that a schedule reads or changes. -/
def touched (schedule : Schedule) : List Qubit := Layer.touchedAll schedule

/-- Layers, loop bodies counted once. -/
def layerCount (schedule : Schedule) : Nat := Layer.sizeAll schedule

/-- Whether a tick is still owed after a schedule that started with one owed or
    not. -/
def owesTickAfter (owed : Bool) : Schedule → Bool
  | [] => owed
  | layer :: rest =>
    owesTickAfter (layer.owesTick || (owed && !layer.needsTickBefore)) rest

/-- Whether the last timing slot is still open at the end. -/
def owesTick (schedule : Schedule) : Bool := owesTickAfter false schedule

end Schedule

end StabilizerLayers
