import StabilizerLayers.Layer.Basic

/-!
# The tail of a schedule

What follows the last measurement of a whole circuit changes no result. Layers
are taken off the end as long as they neither measure nor hold other layers;
metadata that names no qubit is passed over and kept. A loop, or an observable
that names qubits, ends the tail.
-/

namespace StabilizerLayers

/-- Whether a layer at the end of a whole circuit can be left out. -/
def Layer.isForgettable : Layer → Bool
  | reset _ | interact _ | interactSwap _ | swap _ | iswap _ | sqrtProduct _ | feedback _
  | rotation _ | empty => true
  | _ => false

/-- Whether a layer is metadata that names no qubit. -/
def Layer.namesNoQubit (layer : Layer) : Bool := layer.isMetadata && layer.touched.isEmpty

namespace Schedule

/-- Takes the tail off layers that are given latest first. -/
def dropTail : List Layer → List Layer
  | [] => []
  | layer :: earlier =>
    if layer.isForgettable then dropTail earlier
    else if layer.namesNoQubit then layer :: dropTail earlier
    else layer :: earlier

/-- A whole circuit without what no measurement can see. -/
def withoutTail (schedule : Schedule) : Schedule := (dropTail schedule.reverse).reverse

end Schedule

end StabilizerLayers
