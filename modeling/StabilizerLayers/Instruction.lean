import StabilizerLayers.Target
import StabilizerLayers.Decimal.Shortest

/-!
# Instructions

An instruction is a gate name with numeric arguments and targets. A name that
the vocabulary does not know is kept as it was written; nothing is known about
such a gate, so nothing is checked about its targets.

`Instruction.validate` reports the first fault in reading order. Arguments are
compared as numbers: a zero equals a negative zero, and what is not a number
equals nothing.
-/

namespace StabilizerLayers

/-- The name part of an instruction. -/
inductive Operator where
  /-- A gate of the vocabulary. -/
  | known (gate : Gate)
  /-- Any other name, kept letter by letter. -/
  | custom (name : String)
deriving DecidableEq, Repr

namespace Operator

/-- Resolves a name, keeping it when the vocabulary does not have it. -/
def ofName (name : String) : Operator :=
  match Gate.ofName? name with
  | some gate => known gate
  | none => custom name

/-- The name as it is written. -/
def name : Operator → String
  | known gate => gate.name
  | custom name => name

/-- The gate, when the vocabulary has it. -/
def gate? : Operator → Option Gate
  | known gate => some gate
  | custom _ => none

end Operator

/-- A gate with arguments and targets. -/
structure Instruction where
  operator : Operator
  targets : List Target
  arguments : List Float
deriving BEq

/-- Why an instruction is refused. -/
inductive InstructionError where
  /-- A gate without targets was given some. -/
  | unexpectedTargets (gate : Gate) (count : Nat)
  /-- A gate on pairs was given an odd number of targets. -/
  | unpairedTarget (gate : Gate) (count : Nat)
  /-- Both operands of a pair are the same qubit. -/
  | duplicateQubit (gate : Gate) (id : Qubit)
  /-- The gate does not take this kind of target. -/
  | invalidTarget (gate : Gate) (target : Target)
deriving DecidableEq, Repr

/-- Wording of a refusal. -/
def InstructionError.message : InstructionError → String
  | unexpectedTargets gate count =>
    "Gate '" ++ gate.name ++ "' expects no, got " ++ toString count ++ " targets"
  | unpairedTarget gate count =>
    "Gate '" ++ gate.name ++ "' expects an even number of, got " ++ toString count ++ " targets"
  | duplicateQubit gate id =>
    "Duplicate qubit " ++ toString id.toNat ++ " in operation (gate: " ++ gate.name ++ ")"
  | invalidTarget gate target =>
    "Invalid target '" ++ target.text ++ "' (gate: " ++ gate.name ++ ")"

/-- Consecutive pairs of a list; an odd last element is left out. -/
def consecutivePairs {α : Type} : List α → List (α × α)
  | first :: second :: rest => (first, second) :: consecutivePairs rest
  | _ => []

namespace Instruction

/-- A gate on targets, without arguments. -/
def on (gate : Gate) (targets : List Target) : Instruction := ⟨.known gate, targets, []⟩

/-- A gate on plain qubits, without arguments. -/
def onQubits (gate : Gate) (qubits : List Qubit) : Instruction :=
  on gate (qubits.map Target.plain)

/-- The boundary between two timing slots. -/
def tick : Instruction := on .tick []

/-- The gate, when the vocabulary has it. -/
def gate? (instruction : Instruction) : Option Gate := instruction.operator.gate?

/-- Whether the instruction applies this gate. -/
def applies (instruction : Instruction) (gate : Gate) : Bool := instruction.gate? == some gate

/-- Targets in consecutive pairs. -/
def targetPairs (instruction : Instruction) : List (Target × Target) :=
  consecutivePairs instruction.targets

/-- Qubits named by the targets, in order. -/
def qubits (instruction : Instruction) : List Qubit :=
  instruction.targets.filterMap Target.qubit?

/-- Number of measurement records. A product counts once, so each combiner takes
    one from the number of operators. -/
def recordCount (instruction : Instruction) : Nat :=
  match instruction.gate? with
  | some .measureProduct =>
    instruction.targets.countP Target.isPauli - instruction.targets.count .combiner
  | some (.measure _) | some (.measureReset _) => instruction.targets.length
  | _ => 0

/-- Whether a gate with rules of its own takes a target. -/
def acceptsFree : Gate → Target → Bool
  | .qubitCoords, target => target.isQubit
  | .detector, .record _ => true
  | .detector, _ => false
  | .observableInclude, .record _ => true
  | .observableInclude, target => target.isPauli
  | .shiftCoords, _ => false
  | _, target => target.isPauli || target == .combiner

/-- Whether a gate on pairs takes a target: a classical bit can stand in for an
    operand of a controlled Pauli only. -/
def acceptsPaired (gate : Gate) (target : Target) : Bool :=
  target.isQubit || (gate.controlledBases?.isSome && target.isClassical)

/-- Checks one pair: its kinds of target first, then that a qubit takes part,
    then that the qubits differ. -/
def validatePair (gate : Gate) (first second : Target) : Except InstructionError Unit :=
  if !acceptsPaired gate first then .error (.invalidTarget gate first)
  else if !acceptsPaired gate second then .error (.invalidTarget gate second)
  else if first.isClassical && second.isClassical then .error (.invalidTarget gate second)
  else
    match first.qubit?, second.qubit? with
    | some id, some other => if id = other then .error (.duplicateQubit gate id) else .ok ()
    | _, _ => .ok ()

/-- Checks pairs in order. -/
def validatePairs (gate : Gate) : List (Target × Target) → Except InstructionError Unit
  | [] => .ok ()
  | (first, second) :: rest =>
    match validatePair gate first second with
    | .error fault => .error fault
    | .ok () => validatePairs gate rest

/-- Refuses the first target that fails a test. -/
def requireAll (gate : Gate) (accepts : Target → Bool) (targets : List Target) :
    Except InstructionError Unit :=
  match targets.find? fun target => !accepts target with
  | some target => .error (.invalidTarget gate target)
  | none => .ok ()

/-- Checks targets against the shape of a gate. -/
def validateTargets (gate : Gate) (targets : List Target) : Except InstructionError Unit :=
  match gate.shape with
  | .none =>
    if targets.isEmpty then .ok () else .error (.unexpectedTargets gate targets.length)
  | .single => requireAll gate Target.isQubit targets
  | .pair =>
    if targets.length % 2 ≠ 0 then .error (.unpairedTarget gate targets.length)
    else validatePairs gate (consecutivePairs targets)
  | .free => requireAll gate (acceptsFree gate) targets

/-- Checks an instruction. Gates outside the vocabulary take any targets. -/
def validate (instruction : Instruction) : Except InstructionError Unit :=
  match instruction.gate? with
  | some gate => validateTargets gate instruction.targets
  | none => .ok ()

/-- Text of the arguments in parentheses, nothing when there are none. -/
def argumentsText (arguments : List Float) : String :=
  if arguments.isEmpty then ""
  else "(" ++ String.intercalate ", " (arguments.map Binary64.text) ++ ")"

/-- Text of targets that follow `previous`. A blank stands before each target,
    but not next to a combiner. -/
def targetsText (previous : Target) : List Target → String
  | [] => ""
  | target :: rest =>
    let blank := if target == .combiner || previous == .combiner then "" else " "
    blank ++ target.text ++ targetsText target rest

/-- Text of all targets; the first one always follows a blank. -/
def allTargetsText : List Target → String
  | [] => ""
  | target :: rest => " " ++ target.text ++ targetsText target rest

/-- Text of an instruction on one line. -/
def text (instruction : Instruction) : String :=
  instruction.operator.name ++ argumentsText instruction.arguments ++
    allTargetsText instruction.targets

end Instruction

end StabilizerLayers
