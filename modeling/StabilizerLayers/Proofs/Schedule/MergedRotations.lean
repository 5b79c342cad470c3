import Mathlib.Data.List.Forall2
import StabilizerLayers.Proofs.Schedule.Compatible
import StabilizerLayers.Proofs.Trace.Rotations

/-!
# What layers see of merged rotations

The stops of a level are its layers other than rotations, each with what the rotation
layers before it come to on every qubit. Merging moves rotations from one place between
stops to another. It keeps the stops and their order, and no stop can tell: before each
of them, the qubits that it touches are rotated as they were. Loops are never passed, so
before a loop, and at the end of a level, every qubit is rotated as it was.

A rotation that is carried back over a stop is seen there too early, but only on qubits
that the stop does not touch. That is the one step of the argument; that stops stay
alike along any number of steps follows, because it goes from parts to the whole.
-/

namespace StabilizerLayers

/-- A layer other than a rotation, and how each qubit has been rotated before it. -/
structure Stop where
  layer : Layer
  turn : Qubit → Rotation

namespace Layer

/-- Whether a layer can tell how a qubit has been rotated before it. A loop may tell for
    every qubit. -/
def Sees (layer : Layer) (id : Qubit) : Prop := layer.isLoop = true ∨ id ∈ layer.touched

/-- How each qubit has been rotated after a layer. -/
def turned (turn : Qubit → Rotation) : Layer → Qubit → Rotation
  | rotation rotations => fun id => (turn id).followedBy (rotations.get id)
  | _ => turn

/-- The stop that a layer makes, unless it is a rotation. -/
def stop? (turn : Qubit → Rotation) : Layer → Option Stop
  | rotation _ => none
  | layer => some ⟨layer, turn⟩

mutual

/-- The levels inside a layer: the body of a loop, then the levels inside that body. -/
def levels : Layer → List Schedule
  | loop _ body => body :: levelsAll body
  | _ => []

/-- The levels inside some layers. -/
def levelsAll : List Layer → List Schedule
  | [] => []
  | first :: rest => levels first ++ levelsAll rest

end

end Layer

namespace Schedule

/-- The levels of a schedule: its own, then those of its loops, at every depth. -/
def levels (schedule : Schedule) : List Schedule := schedule :: Layer.levelsAll schedule

/-- How each qubit has been rotated at the end of a level. -/
def turnFrom (turn : Qubit → Rotation) (level : List Layer) : Qubit → Rotation :=
  level.foldl Layer.turned turn

/-- The stops of a level, in order, if qubits have been rotated before it. -/
def stopsFrom (turn : Qubit → Rotation) : List Layer → List Stop
  | [] => []
  | layer :: rest => (layer.stop? turn).toList ++ stopsFrom (layer.turned turn) rest

/-- What the rotation layers of a level come to on each qubit, in order. -/
def finalTurn (level : Schedule) : Qubit → Rotation := turnFrom (fun _ => .identity) level

/-- The stops of a level, in order. -/
def stops (level : Schedule) : List Stop := stopsFrom (fun _ => .identity) level

/-- The stops of the first part of a level come first. -/
theorem stopsFrom_append (turn : Qubit → Rotation) (first second : List Layer) :
    stopsFrom turn (first ++ second) =
      stopsFrom turn first ++ stopsFrom (turnFrom turn first) second := by
  induction first generalizing turn with
  | nil => rfl
  | cons layer rest inductionHypothesis =>
    simp only [List.cons_append, stopsFrom, inductionHypothesis, List.append_assoc]
    rfl

/-- The parts of a level rotate one after the other. -/
theorem turnFrom_append (turn : Qubit → Rotation) (first second : List Layer) :
    turnFrom turn (first ++ second) = turnFrom (turnFrom turn first) second :=
  List.foldl_append

end Schedule

/-! ### Stops that are alike -/

namespace Stop

/-- The stop with all levels of its body changed. -/
def inBody (change : List Layer → List Layer) (stop : Stop) : Stop :=
  { stop with layer := stop.layer.inBody change }

/-- Whether two stops are the same layer, with the same rotation before it of each qubit
    that it sees. -/
structure Alike (before after : Stop) : Prop where
  layer : after.layer = before.layer
  turn : ∀ id, before.layer.Sees id → after.turn id = before.turn id

/-- Every stop is like itself. -/
theorem Alike.refl (stop : Stop) : stop.Alike stop := ⟨rfl, fun _ _ => rfl⟩

/-- Likeness is passed on. -/
theorem Alike.trans {first second third : Stop} (left : first.Alike second)
    (right : second.Alike third) : first.Alike third where
  layer := right.layer.trans left.layer
  turn id sees := (right.turn id (left.layer ▸ sees)).trans (left.turn id sees)

/-- Stops that are pairwise alike to others are so to those that these are alike to. -/
theorem forall₂_alike_trans {first second third : List Stop}
    (left : List.Forall₂ Alike first second) (right : List.Forall₂ Alike second third) :
    List.Forall₂ Alike first third := by
  induction left generalizing third with
  | nil => exact right
  | cons here _ inductionHypothesis =>
    cases right with
    | cons next later => exact .cons (here.trans next) (inductionHypothesis later)

/-- Stops that are alike are the same layers. -/
theorem map_layer_of_alike {before after : List Stop} (alike : List.Forall₂ Alike before after) :
    after.map Stop.layer = before.map Stop.layer := by
  induction alike with
  | nil => rfl
  | cons here _ inductionHypothesis => simp [here.layer, inductionHypothesis]

end Stop

/-- Whether two levels have stops that are alike and rotate each qubit alike, however
    qubits have been rotated before. -/
def SameStops (before after : List Layer) : Prop :=
  ∀ turn, List.Forall₂ Stop.Alike (Schedule.stopsFrom turn before) (Schedule.stopsFrom turn after) ∧
    Schedule.turnFrom turn after = Schedule.turnFrom turn before

namespace SameStops

/-- Levels with the same stops can be put together. -/
protected theorem composes : Composes SameStops where
  refl layers turn := ⟨List.forall₂_same.mpr fun stop _ => .refl stop, rfl⟩
  trans left right turn := by
    obtain ⟨alikeLeft, sameLeft⟩ := left turn
    obtain ⟨alikeRight, sameRight⟩ := right turn
    exact ⟨Stop.forall₂_alike_trans alikeLeft alikeRight, sameRight.trans sameLeft⟩
  append {first second third other} left right turn := by
    obtain ⟨alikeLeft, sameLeft⟩ := left turn
    obtain ⟨alikeRight, sameRight⟩ := right (Schedule.turnFrom turn first)
    simp only [Schedule.stopsFrom_append, Schedule.turnFrom_append, sameLeft]
    exact ⟨List.rel_append alikeLeft alikeRight, sameRight⟩

/-- Two rotations rotate like the joint one. -/
theorem joint (earlier later : RotationLayer) :
    SameStops [.rotation earlier, .rotation later] [.rotation (earlier.followedBy later)] := by
  refine fun turn => ⟨.nil, funext fun id => ?_⟩
  simp [Schedule.turnFrom, Layer.turned, Rotation.followedBy_assoc]

/-- An idle rotation rotates nothing. -/
theorem idle {rotations : RotationLayer} (vacuous : rotations.isVacuous = true) :
    SameStops [.rotation rotations] [] := by
  refine fun turn => ⟨.nil, funext fun id => ?_⟩
  simp [Schedule.turnFrom, Layer.turned, RotationLayer.get_of_isVacuous vacuous]

/-- A layer does not see a rotation of other qubits pass, unless it is a loop. -/
theorem passed {layer : Layer} {later : RotationLayer}
    (noRotation : ∀ rotations, layer ≠ .rotation rotations)
    (noLoop : ∀ repetitions body, layer ≠ .loop repetitions body)
    (apart : ∀ id ∈ layer.touched, id ∉ later.touched) :
    SameStops [layer, .rotation later] [.rotation later, layer] := by
  have flat : layer.isLoop = false := by
    cases layer <;> first | rfl | exact absurd rfl (noLoop _ _)
  have stopped : ∀ turn, layer.stop? turn = some ⟨layer, turn⟩ := by
    cases layer <;> first | exact fun _ => rfl | exact absurd rfl (noRotation _)
  have stays : ∀ turn, layer.turned turn = turn := by
    cases layer <;> first | exact fun _ => rfl | exact absurd rfl (noRotation _)
  intro turn
  -- The turns at the two stops differ, but on no qubit that the layer touches.
  have alike : Stop.Alike ⟨layer, turn⟩ ⟨layer, (Layer.rotation later).turned turn⟩ := by
    refine ⟨rfl, fun id sees => ?_⟩
    have touched : id ∈ layer.touched := sees.resolve_left (by simp [flat])
    simp [Layer.turned, RotationLayer.get_of_not_mem_touched (apart id touched)]
  constructor
  · simpa [Schedule.stopsFrom, stopped, Layer.stop?] using alike
  · simp [Schedule.turnFrom, stays]

/-- Merging the rotations of one level keeps its stops. -/
theorem mergeLevel (level : List Layer) : SameStops level (Schedule.mergeLevel level) :=
  SameStops.composes.mergeLevel joint idle passed level

end SameStops

/-! ### Levels -/

namespace Layer

/-- Rotations are not loops, so the levels inside some layers are inside their stops. -/
theorem levelsAll_eq_flatMap (turn : Qubit → Rotation) (layers : List Layer) :
    levelsAll layers = ((Schedule.stopsFrom turn layers).map Stop.layer).flatMap levels := by
  induction layers generalizing turn with
  | nil => rfl
  | cons layer rest inductionHypothesis =>
    rw [levelsAll, inductionHypothesis (layer.turned turn), Schedule.stopsFrom, List.map_append,
      List.flatMap_append]
    cases layer <;> simp [stop?, levels]

/-- Layers with the same stops have the same levels inside. -/
theorem levelsAll_of_sameStops {before after : List Layer} (same : SameStops before after) :
    levelsAll after = levelsAll before := by
  obtain ⟨alike, -⟩ := same fun _ => .identity
  rw [levelsAll_eq_flatMap _ after, levelsAll_eq_flatMap _ before, Stop.map_layer_of_alike alike]

mutual

/-- A change of every level that adds and drops none changes each level inside a layer. -/
theorem levels_inBody {change : List Layer → List Layer}
    (keeps : ∀ layers, levelsAll (change layers) = levelsAll layers) (layer : Layer) :
    (layer.inBody change).levels = layer.levels.map (Schedule.everyLevel change) := by
  cases layer with
  | loop repetitions body =>
    -- The levels inside the changed body are those from before its outermost change.
    rw [inBody, levels, keeps, levelsAll_inBodies keeps body, levels, List.map_cons]
    rfl
  | reset _ | measure _ | interact _ | interactSwap _ | swap _ | iswap _ | sqrtProduct _
  | feedback _ | rotation _ | product _ | parity _ | qubitCoords _ | shiftCoords _ | empty => rfl

/-- A change of every level that adds and drops none changes each level inside some layers. -/
theorem levelsAll_inBodies {change : List Layer → List Layer}
    (keeps : ∀ layers, levelsAll (change layers) = levelsAll layers) (layers : List Layer) :
    levelsAll (inBodies change layers) = (levelsAll layers).map (Schedule.everyLevel change) := by
  cases layers with
  | nil => rfl
  | cons first rest =>
    rw [inBodies, levelsAll, levelsAll, levels_inBody keeps first, levelsAll_inBodies keeps rest,
      List.map_append]

end

end Layer

namespace Schedule

/-- A change of every level that adds and drops none changes each level. -/
theorem levels_everyLevel {change : List Layer → List Layer}
    (keeps : ∀ layers, Layer.levelsAll (change layers) = Layer.levelsAll layers)
    (schedule : Schedule) :
    (schedule.everyLevel change).levels = schedule.levels.map (everyLevel change) := by
  rw [levels, levels, List.map_cons, ← Layer.levelsAll_inBodies keeps schedule, everyLevel, keeps]

/-- A change of the bodies in a level changes the bodies of its stops. -/
theorem stopsFrom_inBodies (change : List Layer → List Layer) (turn : Qubit → Rotation)
    (level : List Layer) :
    stopsFrom turn (Layer.inBodies change level) =
      (stopsFrom turn level).map (Stop.inBody change) := by
  induction level generalizing turn with
  | nil => rfl
  | cons layer rest inductionHypothesis =>
    have turned : (layer.inBody change).turned turn = layer.turned turn := by cases layer <;> rfl
    rw [Layer.inBodies, stopsFrom, stopsFrom, turned, inductionHypothesis, List.map_append]
    cases layer <;> rfl

/-- A change of the bodies in a level changes none of its rotations. -/
theorem turnFrom_inBodies (change : List Layer → List Layer) (turn : Qubit → Rotation)
    (level : List Layer) : turnFrom turn (Layer.inBodies change level) = turnFrom turn level := by
  rw [turnFrom, turnFrom, Layer.inBodies_eq_map, List.foldl_map]
  congr with turn layer
  cases layer <;> rfl

/-- Merging changes each level of a schedule, at every loop depth, and no level comes or
    goes. On each level the layers other than rotations stay in order, a loop with its body
    merged; the rotation layers before each of them come to the same rotation of every
    qubit that it touches, and of every qubit if it is a loop; and those of the whole level
    come to the same rotation of every qubit. -/
theorem levels_mergeRotations (schedule : Schedule) :
    schedule.mergeRotations.levels = schedule.levels.map mergeRotations ∧
    ∀ level ∈ schedule.levels,
      List.Forall₂ Stop.Alike (level.stops.map (Stop.inBody mergeLevel))
        level.mergeRotations.stops ∧
      level.mergeRotations.finalTurn = level.finalTurn := by
  constructor
  · exact levels_everyLevel (fun level => Layer.levelsAll_of_sameStops (.mergeLevel level)) schedule
  · intro level _
    obtain ⟨alike, same⟩ :=
      SameStops.mergeLevel (Layer.inBodies mergeLevel level) fun _ => .identity
    rw [stopsFrom_inBodies] at alike
    rw [turnFrom_inBodies] at same
    exact ⟨alike, same⟩

/-- A body in which one rotation joins an earlier one across a measurement, and another is
    held back by a measurement of its qubit. -/
def crossedBody : Schedule :=
  [.rotation (.ofList [(0, .exchange .Y), (2, .cycleXYZ)]), .measure [⟨1, .Z, false⟩],
    .rotation (.ofList [(0, .exchange .Z)]), .measure [⟨2, .X, true⟩],
    .rotation (.ofList [(2, .cycleZYX)])]

/-- A schedule in which two rotations cancel before a loop. -/
def crossedSample : Schedule :=
  [.rotation (.ofList [(0, .exchange .Y)]), .measure [⟨1, .Z, false⟩],
    .rotation (.ofList [(0, .exchange .Y)]), .loop 3 crossedBody]

/-- Rotations meet across a measurement and cancel before a loop, and no stop sees a difference. -/
theorem levels_mergeRotations_sample :
    crossedSample.mergeRotations.map Layer.kind = [.measure, .loop] ∧
    crossedBody.mergeRotations.map Layer.kind = [.rotation, .measure, .measure, .rotation] ∧
    crossedBody ∈ crossedSample.levels ∧
    List.Forall₂ Stop.Alike (crossedBody.stops.map (Stop.inBody mergeLevel))
      crossedBody.mergeRotations.stops ∧
    crossedBody.mergeRotations.finalTurn = crossedBody.finalTurn := by
  have inside : crossedBody ∈ crossedSample.levels := by
    simp [crossedSample, levels, Layer.levelsAll, Layer.levels]
  refine ⟨by decide +kernel, by decide +kernel, inside, ?_⟩
  exact (levels_mergeRotations crossedSample).2 crossedBody inside

end Schedule

end StabilizerLayers
