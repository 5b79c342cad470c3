import StabilizerLayers.Proofs.Circuit.Fusing

/-!
# Sequences of builder calls

A circuit is built by calls, each of which asks for one instruction. A call is refused exactly
if its instruction is invalid, and then nothing changes. An accepted instruction is written
behind the circuit, or its targets are joined to the latest instruction.

Only the new instruction is checked. A joint one is valid all the same, so whatever is called
in whatever order, all instructions written are valid. What was accepted is all there: the
targets stand in the order of the calls, each under the operator that was asked for.
-/

namespace StabilizerLayers

/-! ### Targets under their operators -/

/-- The targets of an instruction, each under the operator. -/
def Instruction.labelled (instruction : Instruction) : List (Operator × Target) :=
  instruction.targets.map fun target => (instruction.operator, target)

namespace Circuit

variable {circuit : Circuit} {instruction : Instruction}

/-- The targets of all instructions in order, each under its operator. -/
def labelled (circuit : Circuit) : List (Operator × Target) :=
  (Operation.instructionsAll circuit).flatMap Instruction.labelled

/-- The instructions of a circuit with a last one. -/
theorem instructionsAll_concat :
    Operation.instructionsAll (circuit ++ [.single instruction]) =
      Operation.instructionsAll circuit ++ [instruction] :=
  Operation.instructionsAll_append circuit [.single instruction]

/-- A circuit with one more instruction is valid if both are. -/
theorem valid_concat :
    Valid (circuit ++ [.single instruction]) ↔
      circuit.Valid ∧ instruction.validate = .ok () := by
  rw [Valid, Valid, instructionsAll_concat, List.forall_mem_append, List.forall_mem_singleton]

/-- One more instruction puts its targets behind the others. -/
theorem labelled_concat :
    labelled (circuit ++ [.single instruction]) = circuit.labelled ++ instruction.labelled := by
  rw [labelled, instructionsAll_concat, List.flatMap_append, List.flatMap_singleton]
  rfl

end Circuit

/-- A joint instruction has the targets of both under their common operator. -/
theorem Instruction.labelled_withTargets {first second : Instruction}
    (fuses : Builder.fuses first second = true) :
    (first.withTargets second.targets).labelled = first.labelled ++ second.labelled := by
  simp only [Builder.fuses, Bool.and_eq_true, beq_iff_eq] at fuses
  obtain ⟨⟨-, operator⟩, -⟩ := fuses
  rw [labelled, labelled, labelled, ← operator]
  exact List.map_append

namespace Builder

/-! ### Calls -/

/-- A call that asks for one instruction. -/
inductive Call where
  | append (instruction : Instruction)
  | fuse (instruction : Instruction)
  | gate (applied : Gate) (ids : List Qubit)
  | h (id : Qubit)
  | s (id : Qubit)
  | cx (control target : Qubit)
  | cz (first second : Qubit)
  | swap (first second : Qubit)
  | measure (axis : Basis) (id : Qubit)
  | reset (axis : Basis) (id : Qubit)
  | tick
  | detector (coordinates : List Float) (lookbacks : List UInt32)

namespace Call

/-- What a builder answers to a call. -/
def perform (builder : Builder) : Call → Except InstructionError Builder
  | append instruction => builder.append instruction
  | fuse instruction => builder.fuse instruction
  | gate applied ids => builder.gate applied ids
  | h id => builder.h id
  | s id => builder.s id
  | cx control target => builder.cx control target
  | cz first second => builder.cz first second
  | swap first second => builder.swap first second
  | measure axis id => builder.measure axis id
  | reset axis id => builder.reset axis id
  | tick => builder.tick
  | detector coordinates lookbacks => builder.detector coordinates lookbacks

/-- The instruction that a call asks for. -/
def instruction : Call → Instruction
  | append instruction | fuse instruction => instruction
  | gate applied ids => .onQubits applied ids
  | h id => .onQubits (.exchange .Y) [id]
  | s id => .onQubits (.sqrtPauli .Z false) [id]
  | cx control target => .onQubits (.controlled .Z .X) [control, target]
  | cz first second => .onQubits (.controlled .Z .Z) [first, second]
  | swap first second => .onQubits .swap [first, second]
  | measure axis id => .onQubits (.measure axis) [id]
  | reset axis id => .onQubits (.reset axis) [id]
  | tick => .tick
  | detector coordinates lookbacks =>
    { Instruction.on .detector (lookbacks.map .record) with arguments := coordinates }

/-- Whether a call may join its instruction to the latest one. -/
def joins : Call → Bool
  | fuse _ => true
  | _ => false

/-- Whether the instruction of a call passes its check. -/
def accepted (call : Call) : Bool := call.instruction.validate.isOk

/-- Every call appends or joins its instruction. -/
theorem perform_eq (builder : Builder) (call : Call) :
    call.perform builder =
      if call.joins then builder.fuse call.instruction else builder.append call.instruction := by
  cases call <;> rfl

end Call

/-- The builder after a call; a refused call leaves it as it was. -/
def called (builder : Builder) (call : Call) : Builder :=
  match call.perform builder with
  | .ok next => next
  | .error _ => builder

/-- The builder after some calls. -/
def calledAll (builder : Builder) : List Call → Builder
  | [] => builder
  | call :: rest => (builder.called call).calledAll rest

/-! ### One call -/

/-- What writing a valid instruction makes of a circuit: the instruction stands behind it, or
    its targets are joined to the latest instruction. -/
inductive Writes (instruction : Instruction) : Circuit → Circuit → Prop where
  | behind (circuit : Circuit) : Writes instruction circuit (circuit ++ [.single instruction])
  | joined (earlier : Circuit) {latest : Instruction} (fuses : fuses latest instruction = true) :
      Writes instruction (earlier ++ [.single latest])
        (earlier ++ [.single (latest.withTargets instruction.targets)])

namespace Writes

variable {instruction : Instruction} {before after : Circuit}

/-- Writing a valid instruction keeps a circuit valid. -/
theorem valid (writes : Writes instruction before after) (passes : instruction.validate = .ok ())
    (held : before.Valid) : after.Valid := by
  cases writes with
  | behind => exact Circuit.valid_concat.mpr ⟨held, passes⟩
  | joined earlier fuses =>
    obtain ⟨earlierValid, latestValid⟩ := Circuit.valid_concat.mp held
    have joint := Instruction.validate_withTargets fuses latestValid passes
    exact Circuit.valid_concat.mpr ⟨earlierValid, joint⟩

/-- Writing an instruction adds its targets. -/
theorem labelled (writes : Writes instruction before after) :
    after.labelled = before.labelled ++ instruction.labelled := by
  cases writes with
  | behind => exact Circuit.labelled_concat
  | joined earlier fuses =>
    rw [Circuit.labelled_concat, Circuit.labelled_concat, Instruction.labelled_withTargets fuses,
      List.append_assoc]

end Writes

variable (builder : Builder) (call : Call)

/-- A call with a valid instruction is accepted and writes it. -/
theorem exists_perform (passes : call.instruction.validate = .ok ()) :
    ∃ next, call.perform builder = .ok next ∧
      Writes call.instruction builder.circuit next.circuit := by
  have pushed : Writes call.instruction builder.circuit
      (builder.push (.single call.instruction)).circuit := by
    rw [circuit_push]
    exact .behind builder.circuit
  rw [Call.perform_eq]
  split
  · obtain ⟨earlier, latest, next, held, fuses, written, result⟩ | ⟨-, written⟩ :=
      builder.fuse_cases passes
    · refine ⟨next, written, ?_⟩
      rw [result, circuit_of_latest? held]
      exact .joined earlier fuses
    · exact ⟨_, written, pushed⟩
  · refine ⟨_, ?_, pushed⟩
    rw [append, passes]

/-- A call with an invalid instruction is refused with the fault of the instruction. -/
theorem perform_eq_error {fault : InstructionError}
    (refused : call.instruction.validate = .error fault) : call.perform builder = .error fault := by
  rw [Call.perform_eq]
  split
  · rw [fuse, refused]
  · rw [append, refused]

/-- A call writes its instruction if that is valid, and changes nothing otherwise. -/
theorem called_cases :
    call.accepted = true ∧ call.instruction.validate = .ok () ∧
        Writes call.instruction builder.circuit (builder.called call).circuit ∨
      call.accepted = false ∧ builder.called call = builder := by
  rw [Call.accepted, called]
  cases checked : call.instruction.validate with
  | ok passes =>
    obtain ⟨next, answered, writes⟩ := builder.exists_perform call checked
    rw [answered]
    exact .inl ⟨rfl, rfl, writes⟩
  | error fault =>
    rw [builder.perform_eq_error call checked]
    exact .inr ⟨rfl, rfl⟩

/-- A call keeps a valid circuit valid. -/
theorem valid_called (held : builder.circuit.Valid) : (builder.called call).circuit.Valid := by
  obtain ⟨-, passes, writes⟩ | ⟨-, same⟩ := builder.called_cases call
  · exact writes.valid passes held
  · rwa [same]

/-- A call adds the targets of its instruction if it is accepted. -/
theorem labelled_called :
    (builder.called call).circuit.labelled =
      builder.circuit.labelled ++ if call.accepted then call.instruction.labelled else [] := by
  obtain ⟨accepted, -, writes⟩ | ⟨refused, same⟩ := builder.called_cases call
  · rw [writes.labelled, if_pos accepted]
  · simp [same, refused]

/-! ### Many calls -/

/-- Calls keep a valid circuit valid. -/
theorem valid_calledAll (held : builder.circuit.Valid) (calls : List Call) :
    (builder.calledAll calls).circuit.Valid := by
  induction calls generalizing builder with
  | nil => exact held
  | cons call rest inductionHypothesis =>
    exact inductionHypothesis (builder.called call) (builder.valid_called call held)

/-- Calls add the targets of the instructions that were accepted. -/
theorem labelled_calledAll (calls : List Call) :
    (builder.calledAll calls).circuit.labelled =
      builder.circuit.labelled ++
        (calls.filter Call.accepted).flatMap fun call => call.instruction.labelled := by
  induction calls generalizing builder with
  | nil => simp [calledAll]
  | cons call rest inductionHypothesis =>
    rw [calledAll, inductionHypothesis, labelled_called, List.append_assoc]
    cases answer : call.accepted <;> simp [answer]

/-- Whatever is called, starting with nothing written, every instruction of the circuit is
    valid, joint ones too, and the targets are those of the accepted instructions in order. -/
theorem valid_of_calls (calls : List Call) :
    (empty.calledAll calls).circuit.Valid ∧
      (empty.calledAll calls).circuit.labelled =
        (calls.filter Call.accepted).flatMap fun call => call.instruction.labelled := by
  have nothing : empty.circuit.Valid := List.forall_mem_nil _
  exact ⟨empty.valid_calledAll nothing calls, empty.labelled_calledAll calls⟩

-- A pair of one qubit is refused, and what is called after it still joins what came before.
example :
    (empty.calledAll [.cz 0 1, .cz 2 2, .fuse (.onQubits (.controlled .Z .Z) [1, 2])]).circuit ==
      [.single (.onQubits (.controlled .Z .Z) [0, 1, 1, 2])] := by
  decide +kernel

end Builder

end StabilizerLayers
