import StabilizerLayers.Layer.Basic

/-!
# Neighbouring layers

Two layers that follow each other can often be told more simply:

* layers of one kind on distinct qubits share a slot (`absorb?`);
* rotations compose, vanish before a reset of their qubit, and move behind
  feedback, whose Paulis turn back with them;
* rotations move behind metadata that does not name their qubits, and before
  measurements of other qubits;
* an exchange fuses with couplings of exactly its pairs, and cancels against
  an equal exchange.

`Layer.alongside` applies the first rule that fits and otherwise keeps both
layers. `Layer.alone` simplifies a single layer whose loop body, if any, is
already simple.
-/

namespace StabilizerLayers

namespace Layer

/-- A rotation layer without identity entries, and nothing if none is left. -/
def ofRotations (rotations : RotationLayer) : List Layer :=
  let kept := rotations.withoutIdentities
  if kept.isVacuous then [] else [rotation kept]

/-- A layer between two rotation layers; idle rotations are left out. -/
def between (before : RotationLayer) (layer : Layer) (after : RotationLayer) : List Layer :=
  ofRotations before ++ layer :: ofRotations after

/-- Appends entries if the two layers touch distinct qubits. -/
def mergeDisjoint {α : Type} (qubits : List α → List Qubit) (build : List α → Layer)
    (first second : List α) : Option Layer :=
  if disjoint (qubits first) (qubits second) then some (build (first ++ second)) else none

/-- One layer that does this layer and the next of the same kind in one slot. -/
def absorb? : Layer → Layer → Option Layer
  | reset first, reset second =>
    if second.keys.any first.contains then none
    else some (reset (first.insertAll second.entries))
  | measure first, measure second =>
    mergeDisjoint (fun targets => (measure targets).touched) measure first second
  | interact first, interact second =>
    mergeDisjoint (fun couplings => (interact couplings).touched) interact first second
  | interactSwap first, interactSwap second =>
    mergeDisjoint (fun couplings => (interactSwap couplings).touched) interactSwap first second
  | swap first, swap second =>
    mergeDisjoint (fun pairs => (swap pairs).touched) swap first second
  | iswap first, iswap second =>
    mergeDisjoint (fun pairs => (iswap pairs).touched) iswap first second
  | sqrtProduct first, sqrtProduct second =>
    mergeDisjoint (fun pairs => (sqrtProduct pairs).touched) sqrtProduct first second
  | feedback first, feedback second =>
    mergeDisjoint (fun entries => (feedback entries).touched) feedback first second
  | rotation first, rotation second => some (rotation (first.followedBy second))
  | product first, product second =>
    mergeDisjoint (fun targets => (product targets).touched) product first second
  | parity first, parity second => some (parity (first ++ second))
  | qubitCoords first, qubitCoords second =>
    some (qubitCoords (first.insertAll second.entries))
  | shiftCoords first, shiftCoords second => some (shiftCoords (addShift first second))
  | _, _ => none

/-- Both layers, merged where they can be. -/
def merged (layer next : Layer) : List Layer :=
  match layer.absorb? next with
  | some both => [both]
  | none => [layer, next]

/-- Feedback that does before a rotation what the given one does after it. -/
def feedbackBefore (rotations : RotationLayer) (entries : List Feedback) : List Feedback :=
  entries.map fun entry =>
    { entry with basis := (rotations.get entry.id).inverse.apply entry.basis }

/-- Two rounds of exchanges as one: equal pairs cancel, pairs on fresh qubits
    join, and a pair that meets an earlier one in a single qubit forbids it. -/
def combineSwaps? (first second : List (Qubit × Qubit)) : Option (List (Qubit × Qubit)) :=
  let held := first.flatMap pairQubits
  if second.all fun pair => first.contains pair || disjoint (pairQubits pair) held then
    let cancelled := second.filter first.contains
    some ((first ++ second).filter fun pair => !cancelled.contains pair)
  else none

/-- Couplings that do before an exchange of their qubits what the given ones do
    after it. -/
def couplingsBeforeSwap (couplings : List Coupling) : List Coupling :=
  couplings.map fun coupling =>
    ⟨⟨coupling.second.id, coupling.first.basis⟩, ⟨coupling.first.id, coupling.second.basis⟩⟩

/-- What a layer and the next come to: none, one or two layers. -/
def alongside (layer next : Layer) : List Layer :=
  match layer, next with
  | rotation first, rotation second => ofRotations (first.followedBy second)
  | rotation rotations, reset targets =>
    ofRotations (rotations.without targets.keys) ++ [reset targets]
  | rotation rotations, feedback entries =>
    [feedback (feedbackBefore rotations entries), rotation rotations]
  | rotation rotations, parity instructions =>
    if disjoint rotations.touched (parityQubits instructions) then
      [parity instructions, rotation rotations]
    else [rotation rotations, parity instructions]
  | rotation rotations, shiftCoords shift => [shiftCoords shift, rotation rotations]
  | measure targets, rotation rotations =>
    if disjoint (targets.map fun target => target.id) rotations.touched then
      [rotation rotations, measure targets]
    else [measure targets, rotation rotations]
  | interact couplings, swap pairs =>
    if Coupling.samePairs couplings pairs then [interactSwap couplings]
    else [interact couplings, swap pairs]
  | swap pairs, interact couplings =>
    if Coupling.samePairs couplings pairs then [interactSwap (couplingsBeforeSwap couplings)]
    else [swap pairs, interact couplings]
  | swap first, swap second =>
    match combineSwaps? first second with
    | some [] => []
    | some pairs => [swap pairs]
    | none => [swap first, swap second]
  | layer, next => layer.merged next

/-- A loop with an already simple body: it disappears if it never runs or has
    nothing to do, is told once if it runs once, and turns into a rotation if
    it only rotates. -/
def unloop (repetitions : UInt64) (body : List Layer) : List Layer :=
  if repetitions == 0 || body.isEmpty then []
  else if repetitions == 1 then body
  else
    match body with
    | [rotation rotations] => ofRotations (rotations.pow repetitions.toNat)
    | _ => [loop repetitions body]

/-- What a single layer comes to. -/
def alone : Layer → List Layer
  | rotation rotations => ofRotations rotations
  | loop repetitions body => unloop repetitions body
  | layer => if layer.isVacuous then [] else [layer]

end Layer

end StabilizerLayers
