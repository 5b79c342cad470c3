import StabilizerLayers.Proofs.Pipeline.Runs
import StabilizerLayers.Proofs.Schedule.Entries
import StabilizerLayers.Proofs.Schedule.Numbers

/-!
# Circuits without arguments

A circuit without arguments is grouped into a schedule without numbers, and such a
schedule is written without arguments. So runs of the pipeline on a circuit without
arguments reach no others, and among these the comparison of circuits is equality.
-/

namespace StabilizerLayers

/-- Whether no instruction, in blocks too, has arguments. -/
def Circuit.ArgumentFree (circuit : Circuit) : Prop :=
  ∀ instruction ∈ Operation.instructionsAll circuit, instruction.arguments = []

instance : DecidablePred Circuit.ArgumentFree := fun circuit =>
  inferInstanceAs (Decidable (∀ instruction ∈ Operation.instructionsAll circuit,
    instruction.arguments = []))

/-! ### Equality -/

/-- Instructions without arguments are the same if they are equal. -/
theorem Instruction.beq_iff_eq {first second : Instruction} (firstFree : first.arguments = [])
    (secondFree : second.arguments = []) : (first == second) = true ↔ first = second := by
  obtain ⟨operator, targets, arguments⟩ := first
  obtain ⟨other, others, otherArguments⟩ := second
  obtain rfl : arguments = [] := firstFree
  obtain rfl : otherArguments = [] := secondFree
  have parts : ((⟨operator, targets, []⟩ : Instruction) == ⟨other, others, []⟩) =
      (operator == other && (targets == others && ([] : List Float) == [])) := rfl
  have none : (([] : List Float) == []) = true := rfl
  simp [parts, none]

namespace Operation

mutual

/-- Operations without arguments are the same if they are equal. -/
theorem same_iff_eq {first second : Operation}
    (firstFree : ∀ instruction ∈ first.instructions, instruction.arguments = [])
    (secondFree : ∀ instruction ∈ second.instructions, instruction.arguments = []) :
    same first second = true ↔ first = second := by
  cases first with
  | single instruction =>
    cases second with
    | single other =>
      rw [same, Instruction.beq_iff_eq (firstFree instruction (.head _))
        (secondFree other (.head _)), single.injEq]
    | block _ _ => simp [same]
  | block repetitions body =>
    cases second with
    | single _ => simp [same]
    | block others otherBody =>
      rw [same, Bool.and_eq_true, beq_iff_eq, sameAll_iff_eq firstFree secondFree, block.injEq]

/-- Circuits without arguments are the same if they are equal. -/
theorem sameAll_iff_eq {first second : List Operation}
    (firstFree : ∀ instruction ∈ instructionsAll first, instruction.arguments = [])
    (secondFree : ∀ instruction ∈ instructionsAll second, instruction.arguments = []) :
    sameAll first second = true ↔ first = second := by
  cases first with
  | nil => cases second <;> simp [sameAll]
  | cons operation rest =>
    cases second with
    | nil => simp [sameAll]
    | cons other others =>
      rw [sameAll, Bool.and_eq_true, List.cons.injEq,
        same_iff_eq (fun instruction member => firstFree instruction (List.mem_append_left _ member))
          fun instruction member => secondFree instruction (List.mem_append_left _ member),
        sameAll_iff_eq
          (fun instruction member => firstFree instruction (List.mem_append_right _ member))
          fun instruction member => secondFree instruction (List.mem_append_right _ member)]

end

end Operation

/-! ### Grouping -/

/-- A layer of an instruction without arguments holds no numbers. -/
theorem Instruction.Makes.bare {instruction : Instruction} {layer : Layer}
    (made : instruction.Makes layer) (free : instruction.arguments = []) : layer.Bare := by
  cases made with
  | parity _ =>
    intro other member
    rw [List.mem_singleton.mp member, free]
  | shiftCoords => exact free
  | qubitCoords ids =>
    intro entry member
    rcases QubitMap.mem_insertAll member with none | declared
    · cases none
    · obtain ⟨id, -, rfl⟩ := List.mem_map.mp declared
      exact free
  | product _ _ _ | measure _ | reset _ | rotation _ | interact _ | interactSwap _ | swap _
  | iswap _ | sqrtProduct _ | feedback _ => trivial

/-- A circuit without arguments is grouped into a schedule without numbers. -/
theorem Schedule.allNumberFree_ofCircuit {circuit : Circuit} {schedule : Schedule}
    (free : circuit.ArgumentFree) (grouped : Schedule.ofCircuit circuit = .ok schedule) :
    Layer.AllNumberFree schedule :=
  Layer.allNumberFree_iff_everywhere.mpr <|
    everywhere_ofCircuit Layer.stable_bare
      (fun instruction member _ => Instruction.everywhere_layers fun _ made =>
        made.bare (free instruction member)) grouped

/-! ### Writing -/

namespace Layer

variable {layer : Layer} {instruction : Instruction}

/-- Instructions of a layer that holds no numbers have no arguments. -/
theorem arguments_of_mem_pieces (bare : layer.Bare) (member : instruction ∈ layer.pieces) :
    instruction.arguments = [] := by
  cases layer with
  | reset targets =>
    obtain ⟨basis, ids, -, rfl⟩ := exists_of_mem_resetInstructions member
    rfl
  | measure _ | interact _ | swap _ | iswap _ | sqrtProduct _ | feedback _ =>
    obtain ⟨entry, -, rfl⟩ := List.mem_map.mp member
    rfl
  | interactSwap couplings =>
    obtain ⟨gate, targets, -, rfl⟩ := exists_of_mem_swapInstructions member
    rfl
  | rotation rotations =>
    obtain ⟨gate, targets, -, rfl⟩ := exists_of_mem_rotationInstructions member
    rfl
  | product targets =>
    obtain rfl := List.mem_singleton.mp member
    rfl
  | parity instructions => exact bare instruction member
  | qubitCoords coordinates =>
    obtain ⟨entry, listed, rfl⟩ := List.mem_map.mp member
    exact bare entry listed
  | shiftCoords shift =>
    obtain rfl := List.mem_singleton.mp member
    exact bare
  | empty | loop _ _ => cases member

/-- Lines of a layer that holds no numbers have no arguments. -/
theorem arguments_of_mem_lines (bare : layer.Bare) (member : instruction ∈ layer.lines) :
    instruction.arguments = [] := by
  have each : ∀ piece ∈ layer.pieces, piece.arguments = [] := fun piece listed =>
    arguments_of_mem_pieces bare listed
  rw [lines] at member
  split at member
  · exact each instruction member
  · exact Instruction.forall_mem_joined (fun _ here _ => here) each instruction member

end Layer

/-- A schedule without numbers is written without arguments. -/
theorem Schedule.argumentFree_toCircuit {schedule : Schedule} {circuit : Circuit}
    (parities : Layer.Everywhere Layer.HoldsParities schedule)
    (free : Layer.AllNumberFree schedule) (written : schedule.toCircuit = .ok circuit) :
    circuit.ArgumentFree := by
  obtain ⟨-, rfl⟩ := (Schedule.toCircuit_eq_ok_iff parities).mp written
  have tick : Instruction.tick.arguments = [] := rfl
  have bare := Layer.allNumberFree_iff_everywhere.mp free
  refine Layer.forall_mem_operationsAll tick false (bare.imp ?_)
  exact fun layer _ bare instruction member => Layer.arguments_of_mem_lines bare member

/-! ### Runs -/

/-- Passes bring in no numbers. -/
theorem Pass.addsNoNumbers_runAll {passes : List Pass} {schedule final : Schedule}
    {findings noted : Findings} (ran : runAll passes schedule findings = .ok (final, noted)) :
    AddsNoNumbers schedule final := by
  intro free
  have bare := Layer.allNumberFree_iff_everywhere.mp free
  exact Layer.allNumberFree_iff_everywhere.mpr (Layer.stable_bare.keeps_runAll ran bare)

/-- A run on a circuit without arguments writes one without arguments. -/
theorem Config.argumentFree_runOnce {config : Config} {circuit : Circuit} {output : Output}
    (free : circuit.ArgumentFree) (ran : config.runOnce circuit = .ok output) :
    output.circuit.ArgumentFree := by
  obtain ⟨schedule, final, grouped, passed, written⟩ := runOnce_eq_ok ran
  have follows := (Layer.stable_follows _).keeps_runAll passed
    (Schedule.follows_ofCircuit_grouped grouped)
  have parities : Layer.Everywhere Layer.HoldsParities final :=
    follows.imp fun layer _ here => Layer.holdsParities_of_follows (fun _ => id) here
  have finalFree := Pass.addsNoNumbers_runAll passed
    (Schedule.allNumberFree_ofCircuit free grouped)
  exact Schedule.argumentFree_toCircuit parities finalFree written

end StabilizerLayers
