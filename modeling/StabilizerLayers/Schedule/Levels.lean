import StabilizerLayers.Layer.Basic

/-!
# Levels of a schedule

A loop owns a schedule, so a schedule has levels. A change of one level
becomes a change of all of them by working inside out: every loop body is
changed before the level that holds the loop.
-/

namespace StabilizerLayers

namespace Layer

mutual

/-- Changes all levels of a loop body, innermost first. Other layers stay. -/
def inBody (change : List Layer → List Layer) : Layer → Layer
  | loop repetitions body => loop repetitions (change (inBodies change body))
  | layer => layer

/-- Changes the loop bodies of a level, innermost first. -/
def inBodies (change : List Layer → List Layer) : List Layer → List Layer
  | [] => []
  | first :: rest => inBody change first :: inBodies change rest

end

mutual

/-- A layer, followed by the layers of its body. -/
def flattened : Layer → List Layer
  | loop repetitions body => loop repetitions body :: flattenedAll body
  | layer => [layer]

/-- The layers of all levels, a loop before its body. -/
def flattenedAll : List Layer → List Layer
  | [] => []
  | first :: rest => flattened first ++ flattenedAll rest

end

/-- Whether a layer is a loop. -/
def isLoop : Layer → Bool
  | loop _ _ => true
  | _ => false

/-- Bodies are changed layer by layer. -/
theorem inBodies_eq_map (change : List Layer → List Layer) (layers : List Layer) :
    inBodies change layers = layers.map (inBody change) := by
  induction layers with
  | nil => rfl
  | cons first rest inductionHypothesis => simp [inBodies, inductionHypothesis]

/-- Flattening goes layer by layer. -/
theorem flattenedAll_eq_flatMap (layers : List Layer) :
    flattenedAll layers = layers.flatMap flattened := by
  induction layers with
  | nil => rfl
  | cons first rest inductionHypothesis => simp [flattenedAll, inductionHypothesis]

end Layer

namespace Schedule

/-- Changes every level, innermost first. -/
def everyLevel (change : List Layer → List Layer) (schedule : Schedule) : Schedule :=
  change (Layer.inBodies change schedule)

/-- The layers of all levels, a loop before its body. -/
def flattened (schedule : Schedule) : List Layer := Layer.flattenedAll schedule

end Schedule

end StabilizerLayers
