import Mathlib.Data.Sym.Sym2
import StabilizerLayers.Layer.Basic
import StabilizerLayers.Proofs.Trace.Channels

/-!
# Actions and the events they leave

A circuit is followed up to Pauli signs. What started on a qubit is a wire; an
exchange moves wires between qubits, and each qubit has a frame, the rotation
since it was last fixed. An axis `b` on a qubit is the axis `F⁻¹ b` of its wire,
where `F` is the frame, so rotations leave no event of their own and only turn
the axes of later ones.

A reset forgets the frame and fixes it anew. An exchange with a phase is opaque:
its event names both wires with their frames, and the frames start again from
the identity.

The order of the two operands of an event is immaterial. Events are compared
wire by wire, and those that write or read records also in record order.
-/

namespace StabilizerLayers

/-- Which wire is on each qubit, and how it has been rotated. -/
structure Placement where
  /-- Wires are moved and never lost, so no two qubits hold the same one. -/
  wire : Equiv.Perm Qubit
  frame : Qubit → Rotation

namespace Placement

/-- Every wire on its own qubit, nothing rotated. -/
def start : Placement := ⟨Equiv.refl Qubit, fun _ => .identity⟩

/-- The placement with a new frame of one qubit. -/
def withFrame (placement : Placement) (id : Qubit) (rotation : Rotation) : Placement :=
  { placement with frame := Function.update placement.frame id rotation }

/-- Rotates one qubit further. -/
def rotate (placement : Placement) (id : Qubit) (rotation : Rotation) : Placement :=
  placement.withFrame id ((placement.frame id).followedBy rotation)

/-- Moves the wires of two qubits, with their frames, to each other's place. -/
def exchange (placement : Placement) (first second : Qubit) : Placement where
  wire := (Equiv.swap first second).trans placement.wire
  frame := placement.frame ∘ Equiv.swap first second

/-- The wire of a qubit and its frame: all that an action sees of the qubit. -/
def cell (placement : Placement) (id : Qubit) : Qubit × Rotation :=
  (placement.wire id, placement.frame id)

/-- The wire of a qubit with the axis that an axis of the qubit is on it. -/
def leg (placement : Placement) (id : Qubit) (basis : Basis) : Qubit × Basis :=
  (placement.wire id, (placement.frame id).inverse.apply basis)

/-- A Pauli operator told on its wire. Other targets name no axis and stay. -/
def target (placement : Placement) : Target → Target
  | .pauli basis id inverted =>
    .pauli (placement.leg id basis).2 (placement.leg id basis).1 inverted
  | target => target

/-- Placements with the same cells are equal. -/
theorem ext_cell {first second : Placement}
    (same : ∀ id, first.cell id = second.cell id) : first = second := by
  obtain ⟨wire, frame⟩ := first
  obtain ⟨otherWire, otherFrame⟩ := second
  have wires : wire = otherWire := Equiv.ext fun id => congrArg Prod.fst (same id)
  have frames : frame = otherFrame := funext fun id => congrArg Prod.snd (same id)
  rw [wires, frames]

end Placement

/-- One operation on one qubit, one pair of qubits or one product. -/
inductive Action where
  | rotate (id : Qubit) (rotation : Rotation)
  | exchange (first second : Qubit)
  | reset (id : Qubit) (basis : Basis)
  | measure (target : Measurement)
  /-- Measurement of one product. -/
  | product (factors : List Target)
  /-- A detector or an observable. -/
  | parity (instruction : Instruction)
  | feedback (entry : Feedback)
  | couple (coupling : Coupling)
  | sqrtProduct (pair : SqrtPair)
  /-- An exchange with a phase. -/
  | iswap (first second : Qubit)

/-- What an action leaves, told in terms of wires. -/
inductive Event where
  | reset (wire : Qubit)
  | measure (wire : Qubit) (basis : Basis) (inverted : Bool)
  | product (factors : List Target)
  | parity (instruction : Instruction)
  | feedback (control : Target) (wire : Qubit) (basis : Basis)
  | couple (legs : Sym2 (Qubit × Basis))
  | sqrtProduct (legs : Sym2 (Qubit × Basis)) (dagger : Bool)
  | iswap (cells : Sym2 (Qubit × Rotation))

/-- Where events are kept in order: on every wire, and among the records. -/
inductive Channel where
  | wire (id : Qubit)
  | records

namespace Event

/-- Whether an event writes or reads records. -/
def isRecord : Event → Bool
  | measure .. | product _ | parity _ | feedback .. => true
  | reset _ | couple _ | sqrtProduct .. | iswap _ => false

/-- Whether a Pauli operator acts on a wire. -/
def namedBy (wire : Qubit) : Target → Bool
  | .pauli _ id _ => id == wire
  | _ => false

/-- Whether an event is one of a wire. -/
def names (wire : Qubit) : Event → Bool
  | reset id | measure id _ _ | feedback _ id _ => id == wire
  | product factors => factors.any (namedBy wire)
  | parity instruction => instruction.targets.any (namedBy wire)
  | couple legs | sqrtProduct legs _ => decide (wire ∈ legs.map Prod.fst)
  | iswap cells => decide (wire ∈ cells.map Prod.fst)

/-- Whether an event lies on a channel. -/
def on (event : Event) : Channel → Bool
  | .wire id => event.names id
  | .records => event.isRecord

end Event

/-- Qubits of the Pauli operators among targets. -/
def pauliQubits (targets : List Target) : List Qubit :=
  (targets.filter Target.isPauli).filterMap Target.qubit?

namespace Action

/-- Qubits that an action reads or changes. A rotation by the identity does
    neither. -/
def qubits : Action → List Qubit
  | rotate id rotation => if rotation.isIdentity then [] else [id]
  | exchange first second | iswap first second => [first, second]
  | reset id _ => [id]
  | measure target => [target.id]
  | product factors => pauliQubits factors
  | parity instruction => pauliQubits instruction.targets
  | feedback entry => [entry.id]
  | couple coupling => coupling.qubits
  | sqrtProduct pair => pair.qubits

/-- Whether an action writes or reads records. -/
def isRecord : Action → Bool
  | measure _ | product _ | parity _ | feedback _ => true
  | rotate .. | exchange .. | reset .. | couple _ | sqrtProduct _ | iswap .. => false

/-- The placement after an action. -/
def move (placement : Placement) : Action → Placement
  | rotate id rotation => placement.rotate id rotation
  | exchange first second => placement.exchange first second
  | reset id basis => placement.withFrame id (Rotation.toZ basis).inverse
  | iswap first second => (placement.withFrame first .identity).withFrame second .identity
  | measure _ | product _ | parity _ | feedback _ | couple _ | sqrtProduct _ => placement

/-- The event that an action leaves at a placement. -/
def event? (placement : Placement) : Action → Option Event
  | rotate .. | exchange .. => none
  | reset id _ => some (.reset (placement.wire id))
  | measure target =>
    let leg := placement.leg target.id target.basis
    some (.measure leg.1 leg.2 target.inverted)
  | product factors => some (.product (factors.map placement.target))
  | parity instruction =>
    some (.parity { instruction with targets := instruction.targets.map placement.target })
  | feedback entry =>
    let leg := placement.leg entry.id entry.basis
    some (.feedback entry.control leg.1 leg.2)
  | couple coupling =>
    some (.couple s(placement.leg coupling.first.id coupling.first.basis,
      placement.leg coupling.second.id coupling.second.basis))
  | sqrtProduct pair =>
    some (.sqrtProduct s(placement.leg pair.first pair.basis,
      placement.leg pair.second pair.basis) pair.dagger)
  | iswap first second => some (.iswap s(placement.cell first, placement.cell second))

end Action

namespace Placement

/-- The placement after some actions. -/
def after (placement : Placement) : List Action → Placement
  | [] => placement
  | action :: rest => (action.move placement).after rest

/-- The events of some actions, in time order. -/
def events (placement : Placement) : List Action → List Event
  | [] => []
  | action :: rest => (action.event? placement).toList ++ (action.move placement).events rest

/-- Actions one behind the other move the qubits in that order. -/
@[simp]
theorem after_append (placement : Placement) (first second : List Action) :
    placement.after (first ++ second) = (placement.after first).after second := by
  induction first generalizing placement with
  | nil => rfl
  | cons action rest inductionHypothesis => exact inductionHypothesis _

/-- Later actions are seen from where the earlier ones have moved the qubits. -/
@[simp]
theorem events_append (placement : Placement) (first second : List Action) :
    placement.events (first ++ second) =
      placement.events first ++ (placement.after first).events second := by
  induction first generalizing placement with
  | nil => rfl
  | cons action rest inductionHypothesis =>
    simp only [List.cons_append, events, after, inductionHypothesis, List.append_assoc]

end Placement

end StabilizerLayers
