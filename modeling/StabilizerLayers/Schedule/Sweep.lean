import StabilizerLayers.Layer.ZForm
import StabilizerLayers.Schedule.Levels

/-!
# Sweeps

A sweep reads the layers in time order. Each layer is simplified on its own and
then simplified together with the latest layer kept so far. What the two come to
takes the place of that latest layer, so a layer meets one neighbour only: a
rotation moves past a single measurement per sweep. Loop bodies are swept first.

Putting every layer into its Z-basis form needs no neighbours at all.
-/

namespace StabilizerLayers

namespace Schedule

/-- Adds a layer to the layers kept so far, latest first. -/
def push (kept : List Layer) (layer : Layer) : List Layer :=
  match kept with
  | [] => [layer]
  | latest :: earlier => (latest.alongside layer).reverse ++ earlier

/-- The layers kept, latest first, after one more layer with a simple body. -/
def sweepStep (kept : List Layer) (layer : Layer) : List Layer := layer.alone.foldl push kept

/-- Sweeps one level whose loop bodies are swept already. -/
def sweepLevel (layers : List Layer) : List Layer := (layers.foldl sweepStep []).reverse

/-- One sweep of every level. -/
def sweep (schedule : Schedule) : Schedule := schedule.everyLevel sweepLevel

/-- Sweeps until one changes nothing, at most this many times. -/
def sweepUpTo : Nat → Schedule → Schedule
  | 0, schedule => schedule
  | rounds + 1, schedule =>
    let swept := schedule.sweep
    if Layer.sameAll swept schedule then swept else sweepUpTo rounds swept

/-- The Z-basis form of one level whose loop bodies have it already. -/
def zLevel (layers : List Layer) : List Layer := layers.flatMap Layer.zForm

/-- Every level in its Z-basis form. -/
def zForm (schedule : Schedule) : Schedule := schedule.everyLevel zLevel

end Schedule

/-- What a single layer comes to in a sweep. -/
def Layer.swept (layer : Layer) : List Layer := (layer.inBody Schedule.sweepLevel).alone

end StabilizerLayers
