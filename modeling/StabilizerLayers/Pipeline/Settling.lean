import StabilizerLayers.Lexicographic
import StabilizerLayers.Pipeline.Config
import StabilizerLayers.Schedule.Grouping
import StabilizerLayers.Schedule.Writing
import StabilizerLayers.Text.Printer

/-!
# Settling

The pipeline runs again on its own output until an output comes back that was
seen before. Usually that is the latest output, and the pipeline has settled.
Otherwise the outputs since then form a cycle, and the least of them is chosen:
the one with the fewest instructions and, among those, the one whose lines come
first. When eight outputs are all different, one more run gives the result.

Outputs are compared with arguments as numbers, so a circuit with an argument
that is not a number never settles.
-/

namespace StabilizerLayers

/-- A circuit and what was found out on the way to it. -/
structure Output where
  circuit : Circuit
  findings : Findings

namespace Circuit

/-- Whether a circuit is preferred to another: by instructions, then by lines. -/
def precedes (first second : Circuit) : Bool :=
  first.instructionCount < second.instructionCount ||
    (first.instructionCount == second.instructionCount &&
      Lexicographic.textsBefore first.listing second.listing)

end Circuit

namespace Output

/-- The preferred one of two outputs; the first unless the second precedes it. -/
def preferred (best candidate : Output) : Output :=
  if candidate.circuit.precedes best.circuit then candidate else best

/-- The outputs from the first one with the same circuit on. -/
def cycleFrom (outputs : List Output) (next : Output) : List Output :=
  outputs.dropWhile fun output => !Operation.sameAll output.circuit next.circuit

end Output

namespace Config

/-- Most different outputs before the pipeline is taken to be unsettled. -/
def maxOutputs : Nat := 8

/-- One run of the pipeline on a circuit. -/
def runOnce (config : Config) (circuit : Circuit) : Except TransformError Output :=
  match Schedule.ofCircuit circuit with
  | .error fault => .error fault
  | .ok schedule =>
    match Pass.runAll config.passes schedule config.findings with
    | .error fault => .error fault
    | .ok (final, findings) =>
      match final.toCircuit with
      | .error fault => .error fault
      | .ok circuit => .ok ⟨circuit, findings⟩

/-- Runs the pipeline on its latest output until an output comes back. At most
    `spare` further outputs are remembered. -/
def settle (config : Config) : (spare : Nat) → (earlier : List Output) → (latest : Output) →
    Except TransformError Output
  | spare, earlier, latest =>
    match config.runOnce latest.circuit with
    | .error fault => .error fault
    | .ok next =>
      let outputs := earlier ++ [latest]
      match Output.cycleFrom outputs next, spare with
      | [], 0 => .ok next
      | [], spare + 1 => settle config spare outputs next
      | cycle, _ => .ok (cycle.foldl Output.preferred next)

end Config

namespace Circuit

/-- The canonical form of a circuit under a configuration. -/
def canonicalizeWith (config : Config) (circuit : Circuit) : Except TransformError Output :=
  match config.validate with
  | .error fault => .error fault
  | .ok () =>
    match config.runOnce circuit with
    | .error fault => .error fault
    | .ok first => config.settle (Config.maxOutputs - 1) [] first

/-- The canonical form of a whole circuit or of a fragment. -/
def canonicalize (wholeCircuit : Bool) (circuit : Circuit) : Except TransformError Circuit :=
  match canonicalizeWith { wholeCircuit := wholeCircuit } circuit with
  | .error fault => .error fault
  | .ok output => .ok output.circuit

end Circuit

end StabilizerLayers
