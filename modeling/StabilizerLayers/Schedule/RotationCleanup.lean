import StabilizerLayers.Schedule.Levels

/-!
# Fewer rotation layers

Three clean-ups, each of every level:

* rotation layers that rotate nothing are dropped;
* a rotation moves back over layers on other qubits into an earlier rotation
  layer, if it meets one before a loop or a layer on its qubits;
* a rotation of a qubit that is reset before anything else touches it is
  dropped, because the reset forgets it.
-/

namespace StabilizerLayers

/-- Whether a layer is a rotation that rotates nothing. -/
def Layer.isIdleRotation : Layer → Bool
  | rotation rotations => rotations.isVacuous
  | _ => false

namespace Schedule

/-- Drops the idle rotation layers of one level. -/
def withoutIdleLevel (layers : List Layer) : List Layer :=
  layers.filter fun layer => !layer.isIdleRotation

/-- Drops idle rotation layers. -/
def withoutIdleRotations (schedule : Schedule) : Schedule := schedule.everyLevel withoutIdleLevel

/-- Joins a rotation to the latest rotation layer it can reach, in layers given
    latest first. A joint rotation that rotates nothing disappears. -/
def joinEarlier? (later : RotationLayer) : List Layer → Option (List Layer)
  | [] => none
  | .rotation earlier :: before =>
    let joint := earlier.followedBy later
    some (if joint.isVacuous then before else .rotation joint :: before)
  | .loop _ _ :: _ => none
  | layer :: before =>
    if disjoint layer.touched later.touched then (joinEarlier? later before).map (layer :: ·)
    else none

/-- The layers kept, latest first, after one more layer. -/
def mergeStep (kept : List Layer) : Layer → List Layer
  | .rotation later => (joinEarlier? later kept).getD (.rotation later :: kept)
  | layer => layer :: kept

/-- Merges the rotations of one level backwards. -/
def mergeLevel (layers : List Layer) : List Layer := (layers.foldl mergeStep []).reverse

/-- Merges rotations into earlier rotation layers. -/
def mergeRotations (schedule : Schedule) : Schedule := schedule.everyLevel mergeLevel

/-- Qubits that are reset before anything else touches them, seen from before a
    layer. -/
def resetNextBefore (resetNext : List Qubit) : Layer → List Qubit
  | .rotation _ => resetNext
  | .reset targets => targets.keys ++ resetNext
  | layer => resetNext.filter fun id => !layer.touched.contains id

/-- A layer without the rotations that a reset forgets. -/
def forgetRotations (resetNext : List Qubit) : Layer → List Layer
  | .rotation rotations =>
    let kept := rotations.without resetNext
    if kept.isVacuous then [] else [.rotation kept]
  | layer => [layer]

/-- Qubits that are reset before anything else touches them, seen from before
    some layers, and those layers without the rotations that resets forget. -/
def forgetBeforeResets : List Layer → List Qubit × List Layer
  | [] => ([], [])
  | layer :: rest =>
    let (resetNext, kept) := forgetBeforeResets rest
    (resetNextBefore resetNext layer, forgetRotations resetNext layer ++ kept)

/-- Drops the rotations of one level that resets forget. -/
def beforeResetsLevel (layers : List Layer) : List Layer := (forgetBeforeResets layers).2

/-- Drops rotations that resets forget. -/
def withoutRotationsBeforeResets (schedule : Schedule) : Schedule :=
  schedule.everyLevel beforeResetsLevel

end Schedule

end StabilizerLayers
