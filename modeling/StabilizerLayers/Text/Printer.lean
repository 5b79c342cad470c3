import StabilizerLayers.Circuit.Basic

/-!
# Circuit text

A circuit is written one instruction to a line. A block opens with its
repetition count and a brace, and its body is indented by four blanks more than
the block. The text of a circuit without operations is empty.
-/

namespace StabilizerLayers

mutual

/-- Lines of one operation, each with its nesting depth. -/
def Operation.lines (depth : Nat) : Operation → List (Nat × String)
  | .single instruction => [(depth, instruction.text)]
  | .block repetitions body =>
    (depth, "REPEAT " ++ toString repetitions.toNat ++ " \x7b") ::
      (Operation.linesAll (depth + 1) body ++ [(depth, "\x7d")])

/-- Lines of a list of operations. -/
def Operation.linesAll (depth : Nat) : List Operation → List (Nat × String)
  | [] => []
  | first :: rest => first.lines depth ++ Operation.linesAll depth rest

end

namespace Circuit

/-- Blanks before a line at a depth. -/
def indentation (depth : Nat) : String := String.ofList (List.replicate (4 * depth) ' ')

/-- The lines of a circuit without their indentation. -/
def listing (circuit : Circuit) : List String :=
  (Operation.linesAll 0 circuit).map fun line => line.2

/-- The text of a circuit. -/
def text (circuit : Circuit) : String :=
  String.join ((Operation.linesAll 0 circuit).map fun line =>
    indentation line.1 ++ line.2 ++ "\n")

end Circuit

end StabilizerLayers
