import StabilizerLayers.Circuit.Basic
import StabilizerLayers.Json.Basic

/-!
# Circuits as JSON

The interchange form of a circuit. A choice between alternatives is an object
with one field, named for the alternative; an alternative without contents is a
string, or an object whose one field is null. A record of fields may also be an
array of its fields in order. Fields that are not known are ignored, and fields
that are missing are refused. Nothing is validated.

A number is read as its leading digits, as many as fit into 64 bits, times a
power of ten, each step rounded to a double; a number beyond the doubles is
refused.
-/

namespace StabilizerLayers

namespace Interchange

/-- Names of the gates, in the order of the listing of the vocabulary. -/
def gateTags : List String :=
  ["Tick", "QubitCoords", "Detector", "ObservableInclude", "ShiftCoords",
   "I", "X", "Y", "Z", "H", "HXY", "HYZ", "S", "SDag", "SqrtX", "SqrtXDag", "SqrtY", "SqrtYDag",
   "CXyz", "CZyx", "R", "RX", "RY", "M", "MX", "MY", "MR", "MRX", "MRY", "MPP",
   "CX", "CY", "CZ", "XCX", "XCY", "XCZ", "YCX", "YCY", "YCZ", "Swap", "ISwap", "ISwapDag",
   "SqrtXX", "SqrtXXDag", "SqrtYY", "SqrtYYDag", "SqrtZZ", "SqrtZZDag",
   "CXSwap", "SwapCX", "CZSwap", "XError", "YError", "ZError",
   "Depolarize1", "Depolarize2", "PauliChannel1", "PauliChannel2",
   "CorrelatedError", "ElseCorrelatedError"]

/-- The name of a gate. -/
def gateTag (gate : Gate) : String := (gateTags[gate.index]?).getD gate.name

/-- The gate with a name. -/
def gateOfTag? (tag : String) : Option Gate := (gateTags.zip Gate.all).lookup tag

/-- A double as a number; one that is no finite number becomes null. -/
def ofFloat (value : Float) : Json :=
  if value.isFinite then
    let text := Binary64.text value
    .number (if text.toList.contains '.' then text else text ++ ".0")
  else .null

/-- The alternative of a choice and its contents. -/
def choice? : Json → Option (String × Option Json)
  | .string tag => some (tag, none)
  | .object [(tag, contents)] => some (tag, some contents)
  | _ => none

/-- An alternative without contents. -/
def bare? : String × Option Json → Option String
  | (tag, none) | (tag, some .null) => some tag
  | _ => none

/-- The fields of a record that must be an object. -/
def fields? (names : List String) : Json → Option (List Json)
  | .object fields => names.mapM fun name => fields.reverse.lookup name
  | _ => none

/-- The fields of a record, as an object or as an array in order. -/
def record? (names : List String) : Json → Option (List Json)
  | .array items => if items.length = names.length then some items else none
  | value => fields? names value

/-- A natural number below a bound. -/
def below? (bound : Nat) (value : Json) : Option Nat :=
  value.nat?.filter (· < bound)

/-- A 32-bit number. -/
def word32? (value : Json) : Option UInt32 := (below? UInt32.size value).map UInt32.ofNat

/-- A 64-bit number. -/
def word64? (value : Json) : Option UInt64 := (below? UInt64.size value).map UInt64.ofNat

/-- Leading digits that fit into 64 bits, and the number of digits left out. -/
def leadingDigits (value : Nat) : List Char → Nat × Nat
  | [] => (value, 0)
  | digit :: rest =>
    let next := value * 10 + (digit.toNat - 48)
    if next < UInt64.size then leadingDigits next rest else (value, rest.length + 1)

/-- A significand times a power of ten, in steps that a double can hold. -/
def scaled? (value : Float) (exponent : Int) : Nat → Option Float
  | 0 => none
  | steps + 1 =>
    if exponent.natAbs ≤ 308 then
      let power := Decimal.toFloat ⟨1, exponent.natAbs⟩
      if 0 ≤ exponent then
        let product := value * power
        if product.isInf then none else some product
      else some (value / power)
    else if value == 0 then some value
    else if 0 ≤ exponent then none
    else scaled? (value / Decimal.toFloat ⟨1, 308⟩) (exponent + 308) steps

/-- The double that a number stands for. -/
def float? : Json → Option Float
  | .number text =>
    let (negative, unsigned) :=
      match text.toList with
      | '-' :: rest => (true, rest)
      | rest => (false, rest)
    let (whole, afterWhole) := Decimal.spanDigits unsigned
    let (fraction, afterFraction) :=
      match afterWhole with
      | '.' :: rest => Decimal.spanDigits rest
      | rest => ([], rest)
    let power : Int := ((Decimal.exponent? afterFraction).map (·.1)).getD 0
    let (significand, dropped) := leadingDigits 0 (whole ++ fraction)
    let exponent : Int := power + dropped - fraction.length
    let magnitude :=
      scaled? (Decimal.toFloat ⟨significand, 0⟩) exponent (exponent.natAbs / 308 + 1)
    magnitude.map fun value => if negative then -value else value
  | _ => none

/-- An axis by its letter. -/
def basis? (value : Json) : Option Basis :=
  (choice? value).bind fun choice => (bare? choice).bind fun tag =>
    Basis.all.find? fun basis => basis.letter.toString == tag

/-- Encodes a target. -/
def ofTarget : Target → Json
  | .qubit id inverted =>
    .object [("Qubit", .object [("id", .ofNat id.toNat), ("inverted", .bool inverted)])]
  | .record lookback => .object [("Record", .ofNat lookback.toNat)]
  | .sweep index => .object [("Sweep", .ofNat index.toNat)]
  | .pauli basis id inverted =>
    .object [("Pauli", .object [("basis", .string basis.letter.toString),
      ("id", .ofNat id.toNat), ("inverted", .bool inverted)])]
  | .combiner => .string "Combiner"

/-- Decodes a target. -/
def target? (value : Json) : Option Target :=
  match choice? value with
  | some ("Qubit", some contents) =>
    match fields? ["id", "inverted"] contents with
    | some [id, inverted] =>
      match word32? id, inverted.bool? with
      | some id, some inverted => some (.qubit id inverted)
      | _, _ => none
    | _ => none
  | some ("Record", some contents) => (word32? contents).map .record
  | some ("Sweep", some contents) => (word32? contents).map .sweep
  | some ("Pauli", some contents) =>
    match fields? ["basis", "id", "inverted"] contents with
    | some [basis, id, inverted] =>
      match basis? basis, word32? id, inverted.bool? with
      | some basis, some id, some inverted => some (.pauli basis id inverted)
      | _, _, _ => none
    | _ => none
  | some ("Combiner", none) | some ("Combiner", some .null) => some .combiner
  | _ => none

/-- Encodes the name part of an instruction. -/
def ofOperator : Operator → Json
  | .known gate => .object [("Standard", .string (gateTag gate))]
  | .custom name => .object [("Custom", .string name)]

/-- Decodes the name part of an instruction. -/
def operator? (value : Json) : Option Operator :=
  match choice? value with
  | some ("Standard", some contents) =>
    (choice? contents).bind fun choice => (bare? choice).bind fun tag =>
      (gateOfTag? tag).map .known
  | some ("Custom", some contents) => contents.string?.map .custom
  | _ => none

/-- Encodes an instruction. -/
def ofInstruction (instruction : Instruction) : Json :=
  .object [("gate", ofOperator instruction.operator),
    ("targets", .array (instruction.targets.map ofTarget)),
    ("args", .array (instruction.arguments.map ofFloat))]

/-- Decodes an instruction. -/
def instruction? (value : Json) : Option Instruction :=
  match record? ["gate", "targets", "args"] value with
  | some [operator, .array targets, .array arguments] =>
    match operator? operator, targets.mapM target?, arguments.mapM float? with
    | some operator, some targets, some arguments => some ⟨operator, targets, arguments⟩
    | _, _, _ => none
  | _ => none

mutual

/-- Encodes an operation. -/
def ofOperation : Operation → Json
  | .single instruction => .object [("Instruction", ofInstruction instruction)]
  | .block repetitions body =>
    .object [("Repeat", .object [("repetitions", .ofNat repetitions.toNat),
      ("body", .object [("operations", .array (ofOperations body))])])]

/-- Encodes operations in order. -/
def ofOperations : List Operation → List Json
  | [] => []
  | first :: rest => ofOperation first :: ofOperations rest

end

/-- Encodes a circuit. -/
def ofCircuit (circuit : Circuit) : Json :=
  .object [("operations", .array (ofOperations circuit))]

mutual

/-- Decodes a circuit whose blocks are nested less deeply than a bound. -/
def circuitWithin? : Nat → Json → Option Circuit
  | 0, _ => none
  | depth + 1, value =>
    match record? ["operations"] value with
    | some [.array items] => items.mapM (operationWithin? depth)
    | _ => none

/-- Decodes an operation whose blocks are nested less deeply than a bound. -/
def operationWithin? : Nat → Json → Option Operation
  | depth, value =>
    match choice? value with
    | some ("Instruction", some contents) => (instruction? contents).map .single
    | some ("Repeat", some contents) =>
      match record? ["repetitions", "body"] contents with
      | some [repetitions, body] =>
        match depth with
        | 0 => none
        | depth + 1 =>
          match word64? repetitions, circuitWithin? depth body with
          | some repetitions, some body => some (.block repetitions body)
          | _, _ => none
      | _ => none
    | _ => none

end

mutual

/-- Nesting depth of a value. -/
def depth : Json → Nat
  | .array items => depthItems items + 1
  | .object fields => depthFields fields + 1
  | _ => 0

/-- Greatest nesting depth of items. -/
def depthItems : List Json → Nat
  | [] => 0
  | first :: rest => max (depth first) (depthItems rest)

/-- Greatest nesting depth of fields. -/
def depthFields : List (String × Json) → Nat
  | [] => 0
  | (_, first) :: rest => max (depth first) (depthFields rest)

end

/-- Decodes a circuit. The nesting of the value bounds that of the blocks. -/
def circuit? (value : Json) : Option Circuit := circuitWithin? (depth value + 1) value

end Interchange

end StabilizerLayers
