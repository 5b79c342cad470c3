import StabilizerLayers.Layer.Basic

/-!
# Coordinates of qubits

Coordinates are declared relative to the shifts before them. Declared at the
start of a schedule, they carry those shifts in themselves. Only declarations
at the top level move; a loop shifts by its body's shift as often as it runs.
-/

namespace StabilizerLayers

namespace Layer

mutual

/-- Offset that a layer adds to later coordinates. -/
def totalShift : Layer → List Float
  | shiftCoords shift => shift
  | loop repetitions body => (shiftAfter [] body).map (· * repetitions.toFloat)
  | _ => []

/-- Offset after some layers that start with the given one. -/
def shiftAfter (offset : List Float) : List Layer → List Float
  | [] => offset
  | layer :: rest => shiftAfter (addShift offset (totalShift layer)) rest

end

/-- Whether a layer declares coordinates of qubits. -/
def isQubitCoords : Layer → Bool
  | qubitCoords _ => true
  | _ => false

end Layer

namespace Schedule

/-- Offset that a schedule adds to later coordinates. -/
def totalShift (schedule : Schedule) : List Float := Layer.shiftAfter [] schedule

/-- Declared coordinates with the shifts before them, in time order. -/
def declaredCoords (offset : List Float) : List Layer → List (Qubit × List Float)
  | [] => []
  | .qubitCoords coordinates :: rest =>
    (coordinates.mapValues (Layer.shiftedBy · offset)).entries ++ declaredCoords offset rest
  | layer :: rest => declaredCoords (Layer.addShift offset layer.totalShift) rest

/-- Declares the coordinates of qubits at the start; of several declarations of
    one qubit the last counts. -/
def hoistCoords (schedule : Schedule) : Schedule :=
  let rest := schedule.filter fun layer => !layer.isQubitCoords
  match declaredCoords [] schedule with
  | [] => rest
  | declared => .qubitCoords (.ofList declared) :: rest

end Schedule

end StabilizerLayers
