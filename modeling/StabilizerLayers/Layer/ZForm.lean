import StabilizerLayers.Layer.Neighbours

/-!
# Z-basis forms

A reset, measurement or coupling along another axis is the same operation along
Z between a rotation that carries the axis onto Z and its inverse. Where the
operation also exchanges its qubits, each qubit's inverse rotation stands on its
partner afterwards.
-/

namespace StabilizerLayers

namespace Layer

/-- Rotations that carry the axes of both operands onto Z. -/
def couplingRotations (coupling : Coupling) : List (Qubit × Rotation) :=
  [(coupling.first.id, .toZ coupling.first.basis), (coupling.second.id, .toZ coupling.second.basis)]

/-- Rotations back from Z after the operands have changed places. -/
def crossedRotations (coupling : Coupling) : List (Qubit × Rotation) :=
  [(coupling.first.id, (Rotation.toZ coupling.second.basis).inverse),
    (coupling.second.id, (Rotation.toZ coupling.first.basis).inverse)]

/-- Rotations that carry the axis of a square root onto Z. -/
def sqrtRotations (pair : SqrtPair) : List (Qubit × Rotation) :=
  [(pair.first, .toZ pair.basis), (pair.second, .toZ pair.basis)]

/-- A layer along Z between these rotations and their inverse. -/
def conjugated (rotations : List (Qubit × Rotation)) (layer : Layer) : List Layer :=
  let before := RotationLayer.ofList rotations
  between before layer before.inverse

/-- A layer in terms of operations along Z. A canonical layer stays as it is,
    and a loop is left to the treatment of its body. -/
def zForm (layer : Layer) : List Layer :=
  if layer.isCanonical then [layer]
  else
    match layer with
    | reset targets =>
      conjugated (targets.entries.map fun (id, basis) => (id, .toZ basis))
        (reset (targets.mapValues fun _ => .Z))
    | measure targets =>
      conjugated (targets.map fun target => (target.id, .toZ target.basis))
        (measure (targets.map fun target => { target with basis := .Z }))
    | interact couplings =>
      conjugated (couplings.flatMap couplingRotations) (interact (couplings.map Coupling.toZ))
    | interactSwap couplings =>
      between (.ofList (couplings.flatMap couplingRotations))
        (interactSwap (couplings.map Coupling.toZ))
        (.ofList (couplings.flatMap crossedRotations))
    | sqrtProduct pairs =>
      conjugated (pairs.flatMap sqrtRotations)
        (sqrtProduct (pairs.map fun pair => { pair with basis := .Z }))
    | layer => [layer]

end Layer

end StabilizerLayers
