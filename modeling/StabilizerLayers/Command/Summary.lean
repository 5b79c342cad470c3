import StabilizerLayers.Json.Basic
import StabilizerLayers.Schedule.Grouping

/-!
# Circuit summaries

The numbers of a circuit, as a table or as JSON. A circuit with an instruction
that no layer can hold has no number of layers.
-/

namespace StabilizerLayers

/-- The numbers of a circuit. -/
structure Summary where
  qubits : Nat
  ticks : Nat
  instructions : Nat
  measurements : Nat
  /-- Layers, loop bodies counted once. -/
  layers? : Option Nat
deriving DecidableEq, Repr

/-- Summarizes a circuit. -/
def Circuit.summary (circuit : Circuit) : Summary where
  qubits := circuit.qubitCount
  ticks := circuit.tickCount
  instructions := circuit.instructionCount
  measurements := circuit.recordCount
  layers? := (Schedule.ofCircuit circuit).toOption.map Schedule.layerCount

namespace Summary

/-- A table under the name of the circuit. -/
def table (summary : Summary) (name : String) : String :=
  "Circuit " ++ name ++ "\n" ++
    "  Qubits:       " ++ toString summary.qubits ++ "\n" ++
    "  Ticks:        " ++ toString summary.ticks ++ "\n" ++
    "  Instructions: " ++ toString summary.instructions ++ "\n" ++
    "  Measurements: " ++ toString summary.measurements ++ "\n" ++
    "  Layers:       " ++ (summary.layers?.map toString).getD "unsupported" ++ "\n"

/-- A JSON object. -/
def toJson (summary : Summary) : Json :=
  .object [("qubits", .ofNat summary.qubits), ("ticks", .ofNat summary.ticks),
    ("instructions", .ofNat summary.instructions), ("measurements", .ofNat summary.measurements),
    ("layers", Json.ofOption Json.ofNat summary.layers?)]

end Summary

end StabilizerLayers
