import StabilizerLayers.Schedule.Sweep

/-!
# Rolling rotations out of loops

If a loop body ends in a rotation `R`, running `B R` a number of times is the
same as undoing `R`, running `R B` that number of times and doing `R` once more.
Detectors, observables and coordinate shifts take no time, so they may stand
after the rotation, unless one of them names a rotated qubit.

A body is left as it is when the rotation is all it does, or when a sweep would
carry the rotation back to its end.
-/

namespace StabilizerLayers

/-- Whether a layer takes no time and is no declaration of qubit coordinates. -/
def Layer.isUntimed : Layer → Bool
  | parity _ | shiftCoords _ => true
  | _ => false

namespace Schedule

/-- Layers up to the last timed one, latest first, and the untimed layers after
    it in time order. -/
def splitUntimed (body : List Layer) : List Layer × List Layer :=
  (body.reverse.dropWhile Layer.isUntimed, (body.reverse.takeWhile Layer.isUntimed).reverse)

/-- A body that ends in a rotation, taken apart. -/
structure FinalRotation where
  /-- What comes before the rotation; never empty. -/
  before : List Layer
  rotation : RotationLayer
  /-- Untimed layers after the rotation, none of which names its qubits. -/
  after : List Layer

/-- The rotation that can be rolled out of a body. -/
def finalRotation? (body : List Layer) : Option FinalRotation :=
  match splitUntimed body with
  | (.rotation rotation :: earlier, after) =>
    if !earlier.isEmpty && disjoint (touched after) rotation.touched then
      some ⟨earlier.reverse, rotation, after⟩
    else none
  | _ => none

/-- Whether the last timed layer is a rotation. -/
def endsInRotation (body : List Layer) : Bool :=
  match splitUntimed body with
  | (.rotation _ :: _, _) => true
  | _ => false

/-- A loop with its final rotation rolled out, where it can be. -/
def rolled (repetitions : UInt64) (body : List Layer) : List Layer :=
  match finalRotation? body with
  | none => [.loop repetitions body]
  | some ⟨before, rotation, after⟩ =>
    let moved := sweep (.rotation rotation :: before ++ after)
    if endsInRotation moved then [.loop repetitions body]
    else [.rotation rotation.inverse, .loop repetitions moved, .rotation rotation]

/-- Rolls a loop of a level; its body is swept first. -/
def rollLayer : Layer → List Layer
  | .loop repetitions body => rolled repetitions (sweep body)
  | layer => [layer]

/-- Rolls the loops of one level. -/
def rollLevel (layers : List Layer) : List Layer := layers.flatMap rollLayer

/-- Rolls final rotations out of all loops, innermost first. -/
def rollLoops (schedule : Schedule) : Schedule := schedule.everyLevel rollLevel

end Schedule

end StabilizerLayers
