import StabilizerLayers.Json.Reader
import StabilizerLayers.Pipeline.Config
import StabilizerLayers.Yaml.Mapping

/-!
# Configuration files

A configuration is written as JSON or as YAML. Fields that are left out keep
their defaults; unknown and repeated fields are refused, and so are values of
the wrong type.

As JSON it is an object, or an array of the values in field order that may stop
early. As YAML it is one flat mapping, and a text without a document, or with an
empty one, is the default configuration.
-/

namespace StabilizerLayers

namespace Config

/-- The fields of a configuration file. -/
inductive Field where
  | wholeCircuit
  | hoistCoords
  | rollLoops
  | mergeRotations
  | dropRotationsBeforeResets
  | verify
  | finalRounds
deriving DecidableEq, Repr

/-- A value as it is written. -/
inductive Setting where
  | flag (value : Bool)
  | number (value : Nat)
  /-- Neither a truth value nor a natural number. -/
  | other
deriving DecidableEq, Repr

/-- Why a configuration file is refused. -/
inductive FileError where
  /-- The text does not follow the format. -/
  | malformed
  /-- There is no field of this name. -/
  | unknownField (name : String)
  /-- The field is given twice. -/
  | repeatedField (field : Field)
  /-- The field does not take this value. -/
  | wrongType (field : Field)
  /-- There are more values than fields. -/
  | tooManyValues
deriving DecidableEq, Repr

/-- The fields in order. -/
def Field.all : List Field :=
  [wholeCircuit, hoistCoords, rollLoops, mergeRotations, dropRotationsBeforeResets, verify,
   finalRounds]

/-- The name of a field. -/
def Field.name : Field → String
  | wholeCircuit => "whole_circuit"
  | hoistCoords => "hoist_qubit_coords"
  | rollLoops => "roll_loop_rotations"
  | mergeRotations => "merge_rotations_earlier"
  | dropRotationsBeforeResets => "remove_rotations_before_resets"
  | verify => "verify_vocabulary"
  | finalRounds => "final_optimization_rounds"

/-- The field of a name. -/
def Field.ofName? (name : String) : Option Field := all.find? fun field => field.name == name

/-- Wording of a refusal. -/
def FileError.message : FileError → String
  | malformed => "malformed text"
  | unknownField name => "unknown field '" ++ name ++ "'"
  | repeatedField field => "repeated field '" ++ field.name ++ "'"
  | wrongType field => "wrong type of value for field '" ++ field.name ++ "'"
  | tooManyValues => "more values than fields"

/-- Sets a field. A number of rounds has at most 32 bits. -/
def set (config : Config) : Field → Setting → Except FileError Config
  | .wholeCircuit, .flag value => .ok { config with wholeCircuit := value }
  | .hoistCoords, .flag value => .ok { config with hoistCoords := value }
  | .rollLoops, .flag value => .ok { config with rollLoops := value }
  | .mergeRotations, .flag value => .ok { config with mergeRotations := value }
  | .dropRotationsBeforeResets, .flag value =>
    .ok { config with dropRotationsBeforeResets := value }
  | .verify, .flag value => .ok { config with verify := value }
  | .finalRounds, .number value =>
    if value < UInt32.size then .ok { config with finalRounds := value }
    else .error (.wrongType .finalRounds)
  | field, _ => .error (.wrongType field)

/-- Sets named fields in order; `given` holds those that were set before. -/
def setNamed (given : List Field) (config : Config) :
    List (String × Setting) → Except FileError Config
  | [] => .ok config
  | (name, setting) :: rest =>
    match Field.ofName? name with
    | none => .error (.unknownField name)
    | some field =>
      if given.contains field then .error (.repeatedField field)
      else
        match config.set field setting with
        | .error fault => .error fault
        | .ok changed => setNamed (field :: given) changed rest

/-- Sets fields in field order. -/
def setInOrder (config : Config) : List Field → List Setting → Except FileError Config
  | _, [] => .ok config
  | [], _ :: _ => .error .tooManyValues
  | field :: fields, setting :: rest =>
    match config.set field setting with
    | .error fault => .error fault
    | .ok changed => setInOrder changed fields rest

/-! ### JSON -/

/-- A setting written in JSON. -/
def Setting.ofJson (value : Json) : Setting :=
  match value.bool?, value.nat? with
  | some value, _ => flag value
  | _, some value => number value
  | _, _ => other

/-- The configuration that a JSON value describes. -/
def ofJson : Json → Except FileError Config
  | .object fields => setNamed [] {} (fields.map fun (name, value) => (name, .ofJson value))
  | .array items => setInOrder {} Field.all (items.map Setting.ofJson)
  | _ => .error .malformed

/-- Reads a configuration written in JSON. -/
def readJson (text : String) : Except FileError Config :=
  match Json.parse? text with
  | some value => ofJson value
  | none => .error .malformed

/-! ### YAML -/

/-- Value of a digit in a base up to sixteen. -/
def digit? (base : Nat) (character : Char) : Option Nat :=
  (Json.hexValue? character).filter (· < base)

/-- A number in a base, at least one digit. -/
def inBase? (base : Nat) : List Char → Option Nat
  | [] => none
  | digits => digits.foldlM (fun value digit => (digit? base digit).map (value * base + ·)) 0

/-- A natural number: decimal without leading zeros, or in base sixteen, eight
    or two after its mark. A plus sign may stand before it. -/
def wholeNumber? (characters : List Char) : Option Nat :=
  let unsigned := if characters.head? == some '+' then characters.drop 1 else characters
  match unsigned with
  | '0' :: 'x' :: digits => inBase? 16 digits
  | '0' :: 'o' :: digits => inBase? 8 digits
  | '0' :: 'b' :: digits => inBase? 2 digits
  | '0' :: _ :: _ => none
  | digits => inBase? 10 digits

/-- A truth value. -/
def truthValue? (text : String) : Option Bool :=
  if ["true", "True", "TRUE"].contains text then some true
  else if ["false", "False", "FALSE"].contains text then some false
  else none

/-- The tag of truth values. -/
def truthTag : String := "tag:yaml.org,2002:bool"

/-- The tag of whole numbers. -/
def numberTag : String := "tag:yaml.org,2002:int"

/-- A setting written in YAML. Plain text is what it looks like, whatever its tag;
    literal text is a truth value or a number only if its tag says so. -/
def Setting.ofScalar (scalar : Yaml.Scalar) : Setting :=
  let isPlain := scalar.style == .plain
  let isTagged (tag : String) := scalar.style == .literal && scalar.tag == some tag
  match truthValue? scalar.text, wholeNumber? scalar.text.toList with
  | some value, _ => if isPlain || isTagged truthTag then flag value else other
  | none, some value => if isPlain || isTagged numberTag then number value else other
  | none, none => other

/-- Reads a configuration written in YAML. -/
def readYaml (text : String) : Except FileError Config :=
  match Yaml.readMapping? text with
  | some entries =>
    setNamed [] {} (entries.map fun (name, value) => (name.text, .ofScalar value))
  | none => .error .malformed

end Config

end StabilizerLayers
