import StabilizerLayers.Instruction

/-!
# Circuits

A circuit is a list of operations: instructions, and blocks that repeat a
circuit a number of times. Sizes count a block's body once; executed counts
unroll blocks and stop at the largest 64-bit number.
-/

namespace StabilizerLayers

/-- One entry of a circuit. -/
inductive Operation where
  /-- One instruction. -/
  | single (instruction : Instruction)
  /-- A body that runs a number of times. -/
  | block (repetitions : UInt64) (body : List Operation)

/-- Operations in the order in which they run. -/
abbrev Circuit := List Operation

/-! ### Counts that stop at the largest 64-bit number -/

namespace Tally

/-- The largest count. -/
def limit : Nat := UInt64.size - 1

/-- Sum, stopping at the limit. -/
def add (first second : Nat) : Nat := min limit (first + second)

/-- Product, stopping at the limit. -/
def mul (first second : Nat) : Nat := min limit (first * second)

end Tally

mutual

/-- Equality of operations, with arguments compared as numbers. -/
def Operation.same : Operation → Operation → Bool
  | .single first, .single second => first == second
  | .block count body, .block otherCount otherBody =>
    count == otherCount && Operation.sameAll body otherBody
  | _, _ => false

/-- Equality of operation lists, entry by entry. -/
def Operation.sameAll : List Operation → List Operation → Bool
  | [], [] => true
  | first :: rest, second :: others => Operation.same first second && Operation.sameAll rest others
  | _, _ => false

end

instance : BEq Operation := ⟨Operation.same⟩

mutual

/-- Sum of a measure over the executed instructions of one operation. -/
def Operation.executed (measure : Instruction → Nat) : Operation → Nat
  | .single instruction => measure instruction
  | .block repetitions body => Tally.mul repetitions.toNat (Operation.executedAll measure body)

/-- Sum of a measure over the executed instructions of a list. -/
def Operation.executedAll (measure : Instruction → Nat) : List Operation → Nat
  | [] => 0
  | first :: rest =>
    Tally.add (Operation.executed measure first) (Operation.executedAll measure rest)

end

mutual

/-- Instructions of one operation, a body counted once. -/
def Operation.size : Operation → Nat
  | .single _ => 1
  | .block _ body => Operation.sizeAll body

/-- Instructions of a list, bodies counted once. -/
def Operation.sizeAll : List Operation → Nat
  | [] => 0
  | first :: rest => first.size + Operation.sizeAll rest

end

mutual

/-- Qubits named anywhere in one operation. -/
def Operation.qubits : Operation → List Qubit
  | .single instruction => instruction.qubits
  | .block _ body => Operation.qubitsAll body

/-- Qubits named anywhere in a list. -/
def Operation.qubitsAll : List Operation → List Qubit
  | [] => []
  | first :: rest => first.qubits ++ Operation.qubitsAll rest

end

namespace Circuit

/-- One more than the largest qubit index, and zero without qubits. -/
def qubitCount (circuit : Circuit) : Nat :=
  (Operation.qubitsAll circuit).foldl (fun count id => max count (id.toNat + 1)) 0

/-- Executed ticks. -/
def tickCount (circuit : Circuit) : Nat :=
  Operation.executedAll (fun instruction => if instruction.applies .tick then 1 else 0) circuit

/-- Executed measurement records. -/
def recordCount (circuit : Circuit) : Nat :=
  Operation.executedAll Instruction.recordCount circuit

/-- Instructions, bodies of blocks counted once. -/
def instructionCount (circuit : Circuit) : Nat := Operation.sizeAll circuit

end Circuit

end StabilizerLayers
