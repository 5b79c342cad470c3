import StabilizerLayers.AxisFlip
import StabilizerLayers.Command.Arguments
import StabilizerLayers.Command.Report
import StabilizerLayers.Command.Summary
import StabilizerLayers.Pipeline.Settling
import StabilizerLayers.Text.Reader

/-!
# Running commands

A command reads files and comes to a plan: to finish with a report, or to write
one file first and then finish. Nothing is written unless the whole output is
known. `Invocation.plan` needs only a way to read files; `Workspace.run` carries
the plan out.
-/

namespace StabilizerLayers

/-- What a command comes to. -/
inductive Plan where
  | finish (report : Report)
  /-- Write a file, then finish with a message. -/
  | save (path text message : String)

namespace Command

/-- A way to read files. -/
abbrev Reading := String → Except FileFault String

/-- Reads a circuit. -/
def loadCircuit (read : Reading) (path : String) : Except CommandError Circuit :=
  match read path with
  | .error .missing | .error .notDirectory | .error .nameTooLong => .error (.inputMissing path)
  | .error fault => .error (.inputUnreadable path fault)
  | .ok text =>
    match Circuit.parse text with
    | .error fault => .error (.inputMalformed path fault)
    | .ok circuit => .ok circuit

/-- Reads a configuration in the format that its extension names, and checks
    it. -/
def loadConfig (read : Reading) (path : String) : Except CommandError Config :=
  match read path with
  | .error fault => .error (.configUnreadable path fault)
  | .ok text =>
    match ConfigFormat.ofExtension? (pathExtension path) with
    | none => .error (.configFormat (pathExtension path))
    | some format =>
      match format.read text with
      | .error fault => .error (.configMalformed format path fault)
      | .ok config =>
        match config.validate with
        | .error fault => .error (.configInvalid path fault)
        | .ok () => .ok config

/-- The configuration of a run. A fragment stays one whatever the file says. -/
def chooseConfig (read : Reading) (config : Option String) (fragment : Bool) :
    Except CommandError Config :=
  match config.elim (.ok {}) (loadConfig read) with
  | .error fault => .error fault
  | .ok chosen => .ok { chosen with wholeCircuit := chosen.wholeCircuit && !fragment }

/-- Shows a circuit, or writes it to a file and says so. -/
def deliver (circuit : Circuit) (output : Option String) (message : String → String) : Plan :=
  match output with
  | none => .finish { output := circuit.text }
  | some path => .save path circuit.text (message path)

/-- Message about a canonicalized file. -/
def canonicalizedMessage (input : String) (before after : Circuit) (output : String) : String :=
  "✓ Canonicalized " ++ input ++ " -> " ++ output ++ " (" ++ toString before.tickCount ++
    " -> " ++ toString after.tickCount ++ " ticks)\n"

/-- Message about a flipped file. -/
def flippedMessage (input output : String) : String :=
  "✓ Flipped " ++ input ++ " -> " ++ output ++ "\n"

/-- A transformation that may fail, as part of a command. -/
def attempt {α : Type} : Except TransformError α → Except CommandError α
  | .error fault => .error (.transform fault)
  | .ok value => .ok value

/-- The version of the program. -/
def version : String := "0.1.0"

/-- What the program says about itself. -/
def aboutText : String :=
  "Stratum v" ++ version ++
    " - Z-basis layer canonicalization for stabilizer circuits\n\nComponents:\n" ++
    "  stratum-ir       Flat stabilizer circuit representation\n" ++
    "  stratum-stim     Circuit text parser and emitter\n" ++
    "  stratum-compile  Layering, canonicalization passes and XZ flip\n" ++
    "  stratum-cli      Command-line interface\n\nLicense:    Apache-2.0\n"

/-- How the program is used. -/
def usageText : String :=
  "Usage: stratum [-v] <COMMAND>\n\nCommands:\n" ++
    "  canonicalize -i FILE [-o FILE] [--partial] [--config FILE]\n" ++
    "  flip -i FILE [-o FILE]\n" ++
    "  stats -i FILE [-f table|json]\n" ++
    "  version\n  help\n"

/-- What a command comes to. -/
def plan (read : Reading) : Command → Except CommandError Plan
  | canonicalize input output fragment config => do
    let chosen ← chooseConfig read config fragment
    let circuit ← loadCircuit read input
    let canonical ← attempt (circuit.canonicalizeWith chosen)
    return deliver canonical.circuit output
      (canonicalizedMessage input circuit canonical.circuit)
  | flip input output => do
    let circuit ← loadCircuit read input
    let flipped ← attempt circuit.flipped
    return deliver flipped output (flippedMessage input)
  | stats input format => do
    let circuit ← loadCircuit read input
    match format with
    | "json" => return .finish { output := circuit.summary.toJson.pretty 0 ++ "\n" }
    | "table" => return .finish { output := circuit.summary.table input }
    | _ => throw (.unknownFormat format)
  | about => return .finish { output := aboutText }

/-- The files that a command reads. -/
def inputs : Command → List String
  | canonicalize input _ _ config => config.toList ++ [input]
  | flip input _ => [input]
  | stats input _ => [input]
  | about => []

end Command

namespace Invocation

/-- What an invocation comes to. -/
def plan (read : Command.Reading) : Invocation → Plan
  | run command =>
    match command.plan read with
    | .ok plan => plan
    | .error fault => .finish fault.report
  | help => .finish { output := Command.usageText }
  | version => .finish { output := "stratum " ++ Command.version ++ "\n" }
  | misuse => .finish { status := 2, messages := Command.usageText }

/-- The files that an invocation reads. -/
def inputs : Invocation → List String
  | run command => command.inputs
  | _ => []

end Invocation

/-- Runs the program in a workspace. -/
def Workspace.run (workspace : Workspace) (words : List String) : Report × Workspace :=
  match (Invocation.read words).plan workspace.read with
  | .finish report => (report, workspace)
  | .save path text message =>
    match workspace.write path text with
    | .ok written => ({ messages := message }, written)
    | .error fault => ((CommandError.outputUnwritable path fault).report, workspace)

end StabilizerLayers
