import StabilizerLayers.Circuit.Basic

/-!
# Building circuits

A builder holds the operations written so far, the latest first. Every
instruction is validated before it is written, and a refused one leaves the
builder as it was. `Builder.fuse` writes an instruction into the latest one when
both apply the same gate with the same arguments and the gate allows it.
-/

namespace StabilizerLayers

/-- Operations written so far, the latest first. -/
structure Builder where
  latestFirst : List Operation

namespace Builder

/-- Nothing written yet. -/
def empty : Builder := ⟨[]⟩

/-- The circuit written so far. -/
def circuit (builder : Builder) : Circuit := builder.latestFirst.reverse

/-- Writes an operation without a check. -/
def push (builder : Builder) (operation : Operation) : Builder :=
  ⟨operation :: builder.latestFirst⟩

/-- A written operation is the last one of the circuit. -/
theorem circuit_push (builder : Builder) (operation : Operation) :
    (builder.push operation).circuit = builder.circuit ++ [operation] := List.reverse_cons

/-- Writes a valid instruction. -/
def append (builder : Builder) (instruction : Instruction) :
    Except InstructionError Builder :=
  match instruction.validate with
  | .error fault => .error fault
  | .ok () => .ok (builder.push (.single instruction))

/-- Whether `next` may join the instruction before it. -/
def fuses (latest next : Instruction) : Bool :=
  (next.gate?.any Gate.isFusable) && latest.operator == next.operator &&
    latest.arguments == next.arguments

/-- Writes a valid instruction, joining it to the latest one where possible. -/
def fuse (builder : Builder) (instruction : Instruction) : Except InstructionError Builder :=
  match instruction.validate with
  | .error fault => .error fault
  | .ok () =>
    match builder.latestFirst with
    | .single latest :: earlier =>
      if fuses latest instruction then
        .ok ⟨.single { latest with targets := latest.targets ++ instruction.targets }
          :: earlier⟩
      else .ok (builder.push (.single instruction))
    | _ => .ok (builder.push (.single instruction))

/-- Writes a block. An empty body is kept. -/
def appendBlock (builder : Builder) (repetitions : UInt64) (body : Circuit) : Builder :=
  builder.push (.block repetitions body)

/-- Writes an operation, checking it if it is an instruction. -/
def appendOperation (builder : Builder) : Operation → Except InstructionError Builder
  | .single instruction => builder.append instruction
  | .block repetitions body => .ok (builder.appendBlock repetitions body)

/-- Writes instructions one by one, each joined to the latest where possible. -/
def fuseAll (builder : Builder) : List Instruction → Except InstructionError Builder
  | [] => .ok builder
  | first :: rest =>
    match builder.fuse first with
    | .error fault => .error fault
    | .ok written => written.fuseAll rest

/-- Writes instructions one by one. -/
def appendAll (builder : Builder) : List Instruction → Except InstructionError Builder
  | [] => .ok builder
  | first :: rest =>
    match builder.append first with
    | .error fault => .error fault
    | .ok written => written.appendAll rest

/-- Applies a gate to plain qubits. -/
def gate (builder : Builder) (gate : Gate) (qubits : List Qubit) :
    Except InstructionError Builder :=
  builder.append (.onQubits gate qubits)

/-- Applies a Hadamard gate. -/
def h (builder : Builder) (id : Qubit) : Except InstructionError Builder :=
  builder.gate (.exchange .Y) [id]

/-- Applies a square root of Z. -/
def s (builder : Builder) (id : Qubit) : Except InstructionError Builder :=
  builder.gate (.sqrtPauli .Z false) [id]

/-- Applies a controlled X. -/
def cx (builder : Builder) (control target : Qubit) : Except InstructionError Builder :=
  builder.gate (.controlled .Z .X) [control, target]

/-- Applies a controlled Z. -/
def cz (builder : Builder) (first second : Qubit) : Except InstructionError Builder :=
  builder.gate (.controlled .Z .Z) [first, second]

/-- Exchanges two qubits. -/
def swap (builder : Builder) (first second : Qubit) : Except InstructionError Builder :=
  builder.gate .swap [first, second]

/-- Measures a qubit along an axis. -/
def measure (builder : Builder) (axis : Basis) (id : Qubit) : Except InstructionError Builder :=
  builder.gate (.measure axis) [id]

/-- Resets a qubit along an axis. -/
def reset (builder : Builder) (axis : Basis) (id : Qubit) : Except InstructionError Builder :=
  builder.gate (.reset axis) [id]

/-- Ends the timing slot. -/
def tick (builder : Builder) : Except InstructionError Builder := builder.append .tick

/-- Declares a detector over records counted back from the latest. -/
def detector (builder : Builder) (coordinates : List Float) (lookbacks : List UInt32) :
    Except InstructionError Builder :=
  builder.append ⟨.known .detector, lookbacks.map .record, coordinates⟩

end Builder

end StabilizerLayers
