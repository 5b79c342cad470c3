import StabilizerLayers.Schedule.Levels

/-!
# Censuses

How many layers of each kind a schedule has, on all levels. A loop body counts
once, however often it runs.
-/

namespace StabilizerLayers

/-- Numbers of layers by kind. -/
structure Census where
  /-- The kinds that occur and their numbers, by ascending name. -/
  counts : List (Layer.Kind × Nat)
deriving DecidableEq, Repr

namespace Census

/-- Layers of a kind. -/
def get (census : Census) (kind : Layer.Kind) : Nat := (census.counts.lookup kind).getD 0

/-- Layers of all kinds. -/
def total (census : Census) : Nat := census.counts.foldr (fun entry rest => entry.2 + rest) 0

end Census

namespace Schedule

/-- Layers of a kind on all levels. -/
def countKind (schedule : Schedule) (kind : Layer.Kind) : Nat :=
  (schedule.flattened.map Layer.kind).count kind

/-- The census of a schedule. -/
def census (schedule : Schedule) : Census where
  counts := Layer.Kind.all.filterMap fun kind =>
    match schedule.countKind kind with
    | 0 => none
    | count => some (kind, count)

/-- The first layer that acts along another axis than Z, in loop bodies too. -/
def outsideZBasis? (schedule : Schedule) : Option Layer :=
  schedule.flattened.find? fun layer => !layer.isLoop && !layer.isCanonical

end Schedule

end StabilizerLayers
