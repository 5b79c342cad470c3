import StabilizerLayers.Command.Workspace
import StabilizerLayers.Pipeline.ConfigText
import StabilizerLayers.Text.Token

/-!
# Reports and failures

What a run of the program leaves behind, and why a command fails. The message of
a failure names its causes from the outermost to the innermost; a cause that
wraps an instruction error is followed by that error once more.
-/

namespace StabilizerLayers

/-- What a program leaves behind. -/
structure Report where
  status : UInt32 := 0
  output : String := ""
  messages : String := ""
deriving DecidableEq, Repr

/-- The formats of configuration files. -/
inductive ConfigFormat where
  | json
  | yaml
deriving DecidableEq, Repr

namespace ConfigFormat

/-- The name of a format. -/
def name : ConfigFormat → String
  | json => "JSON"
  | yaml => "YAML"

/-- The format of files with an extension. -/
def ofExtension? : String → Option ConfigFormat
  | "json" => some json
  | "yaml" | "yml" => some yaml
  | _ => none

/-- Reads a configuration. -/
def read : ConfigFormat → String → Except Config.FileError Config
  | json => Config.readJson
  | yaml => Config.readYaml

end ConfigFormat

/-- Why a command fails. -/
inductive CommandError where
  | inputMissing (path : String)
  | inputUnreadable (path : String) (fault : FileFault)
  | inputMalformed (path : String) (fault : ParseError)
  | configUnreadable (path : String) (fault : FileFault)
  | configMalformed (format : ConfigFormat) (path : String) (fault : Config.FileError)
  | configFormat (extension : String)
  | configInvalid (path : String) (fault : TransformError)
  | transform (fault : TransformError)
  | outputUnwritable (path : String) (fault : FileFault)
  | unknownFormat (format : String)

/-- Wording of a refusal, followed by that of its cause if it has one. -/
def ParseError.chain (fault : ParseError) : String :=
  match fault with
  | .invalidInstruction _ cause => fault.message ++ ": " ++ cause.message
  | _ => fault.message

/-- Wording of a failure, followed by that of its cause if it has one. -/
def TransformError.chain (fault : TransformError) : String :=
  match fault with
  | .invalidInstruction cause => fault.message ++ ": " ++ cause.message
  | _ => fault.message

/-- Wording of a failed command, from the outermost cause to the innermost. -/
def CommandError.message : CommandError → String
  | inputMissing path => "File not found: " ++ path
  | inputUnreadable path fault => "Failed to read file: " ++ path ++ ": " ++ fault.message
  | inputMalformed path fault => "Failed to parse " ++ path ++ ": " ++ fault.chain
  | configUnreadable path fault => "Failed to read config: " ++ path ++ ": " ++ fault.message
  | configMalformed format path fault =>
    "Invalid " ++ format.name ++ " config: " ++ path ++ ": " ++ fault.message
  | configFormat extension =>
    "Unknown config format '" ++ extension ++ "'. Use .yaml, .yml or .json"
  | configInvalid path fault => "Invalid config: " ++ path ++ ": " ++ fault.chain
  | transform fault => fault.chain
  | outputUnwritable path fault => "Failed to write file: " ++ path ++ ": " ++ fault.message
  | unknownFormat format => "Unknown format '" ++ format ++ "'. Available: table, json"

/-- The report of a failed command. -/
def CommandError.report (fault : CommandError) : Report where
  status := 1
  messages := "Error: " ++ fault.message ++ "\n"

end StabilizerLayers
