import StabilizerLayers.Proofs.Circuit.Building
import StabilizerLayers.Proofs.Schedule.Everywhere
import StabilizerLayers.Schedule.Writing

/-!
# Operations of a schedule

A schedule is written with a builder, which checks each instruction and may join it
to the one before. The operations that it ends with can be told without a builder:
the instructions of a layer are joined among themselves only, because a tick, a
block or metadata stands between them and those of another layer.

So writing succeeds exactly if all instructions of all layers are valid, and then
gives these operations. What holds of the instructions of every layer, joined or
not, and of a tick holds of every instruction that is written.
-/

namespace StabilizerLayers

/-! ### Joined instructions -/

namespace Instruction

/-- An instruction and those after it, each joined to the one before where possible. -/
def joinedFrom (latest : Instruction) : List Instruction → List Instruction
  | [] => [latest]
  | next :: rest =>
    if Builder.fuses latest next then joinedFrom (latest.withTargets next.targets) rest
    else latest :: joinedFrom next rest

/-- Instructions, each joined to the one before where possible. -/
def joined : List Instruction → List Instruction
  | [] => []
  | first :: rest => joinedFrom first rest

/-- What joining keeps holds of joined instructions if it holds of each. -/
theorem forall_mem_joinedFrom {holds : Instruction → Prop}
    (join : ∀ {first second}, Builder.fuses first second = true → holds first → holds second →
      holds (first.withTargets second.targets))
    {latest : Instruction} {rest : List Instruction} (here : holds latest)
    (later : ∀ instruction ∈ rest, holds instruction) :
    ∀ instruction ∈ joinedFrom latest rest, holds instruction := by
  fun_induction joinedFrom latest rest with
  | case1 latest => simpa using here
  | case2 latest next rest fuses inductionHypothesis =>
    refine inductionHypothesis (join fuses here (later next (.head _))) fun other member => ?_
    exact later other (.tail _ member)
  | case3 latest next rest _ inductionHypothesis =>
    intro instruction member
    rcases List.mem_cons.mp member with rfl | further
    · exact here
    · refine inductionHypothesis (later next (.head _)) (fun other listed => ?_) _ further
      exact later other (.tail _ listed)

/-- What joining keeps holds of joined instructions if it holds of each. -/
theorem forall_mem_joined {holds : Instruction → Prop}
    (join : ∀ {first second}, Builder.fuses first second = true → holds first → holds second →
      holds (first.withTargets second.targets))
    {instructions : List Instruction} (each : ∀ instruction ∈ instructions, holds instruction) :
    ∀ instruction ∈ joined instructions, holds instruction := by
  cases instructions with
  | nil => nofun
  | cons first rest =>
    exact forall_mem_joinedFrom join (each first (.head _)) fun other member =>
      each other (.tail _ member)

end Instruction

/-! ### Builders -/

namespace Builder

variable {builder next : Builder}

/-- Writes operations in order, without a check. -/
def written (builder : Builder) (operations : List Operation) : Builder :=
  ⟨operations.reverse ++ builder.latestFirst⟩

/-- Operations written in two goes stand one behind the other. -/
@[simp]
theorem written_written (builder : Builder) (first second : List Operation) :
    (builder.written first).written second = builder.written (first ++ second) := by
  simp [written]

/-- Writing nothing changes nothing. -/
@[simp]
theorem written_nil (builder : Builder) : builder.written [] = builder := rfl

/-- Whether nothing can join the latest operation. -/
def Closed (builder : Builder) : Prop :=
  ∀ latest earlier, builder.latestFirst = .single latest :: earlier →
    latest.gate?.any Gate.isFusable = false

/-- Nothing joins where nothing is written. -/
theorem closed_empty : Closed empty := nofun

/-- Nothing joins a block. -/
theorem closed_block (builder : Builder) (repetitions : UInt64) (body : List Operation) :
    (builder.written [.block repetitions body]).Closed := by
  intro latest earlier held
  cases held

/-- Nothing joins an instruction that allows it for no other. -/
theorem closed_single (builder : Builder) {instruction : Instruction}
    (alone : instruction.gate?.any Gate.isFusable = false) :
    (builder.written [.single instruction]).Closed := by
  intro latest earlier held
  obtain ⟨same, -⟩ := List.cons.inj held
  exact (Operation.single.inj same) ▸ alone

/-- Nothing joins a tick. -/
theorem closed_tick (builder : Builder) : (builder.written [.single .tick]).Closed :=
  builder.closed_single rfl

/-- Nothing joins the last of some instructions that allow it for no other. -/
theorem Closed.singles (closed : builder.Closed) {instructions : List Instruction}
    (alone : ∀ instruction ∈ instructions, instruction.gate?.any Gate.isFusable = false) :
    (builder.written (instructions.map .single)).Closed := by
  induction instructions generalizing builder with
  | nil => exact closed
  | cons first rest inductionHypothesis =>
    have after := inductionHypothesis (builder.closed_single (alone first (.head _)))
      fun other member => alone other (.tail _ member)
    rwa [written_written] at after

/-- Instructions that are not joined are written as they are. -/
theorem appendAll_eq_ok_iff {instructions : List Instruction} :
    builder.appendAll instructions = .ok next ↔
      (∀ instruction ∈ instructions, instruction.validate = .ok ()) ∧
        next = builder.written (instructions.map .single) := by
  induction instructions generalizing builder with
  | nil => simp [appendAll, eq_comm]
  | cons first rest inductionHypothesis =>
    rw [appendAll, append]
    cases valid : first.validate with
    | error fault => simp [valid]
    | ok _ =>
      have pushed : (builder.push (.single first)).written (rest.map .single) =
          builder.written ((first :: rest).map .single) := by simp [push, written]
      simp [valid, inductionHypothesis, pushed]

/-- Instructions that follow an instruction are joined to it where possible. -/
theorem fuseAll_single_eq_ok_iff (latest : Instruction) (earlier : List Operation)
    {instructions : List Instruction} :
    (⟨.single latest :: earlier⟩ : Builder).fuseAll instructions = .ok next ↔
      (∀ instruction ∈ instructions, instruction.validate = .ok ()) ∧
        next = (⟨earlier⟩ : Builder).written
          ((Instruction.joinedFrom latest instructions).map .single) := by
  induction instructions generalizing latest earlier with
  | nil => simp [fuseAll, Instruction.joinedFrom, written, eq_comm]
  | cons first rest inductionHypothesis =>
    rw [fuseAll, fuse, Instruction.joinedFrom]
    cases valid : first.validate with
    | error fault => simp [valid]
    | ok _ =>
      cases fuses : fuses latest first with
      | true =>
        have joint := inductionHypothesis (latest.withTargets first.targets) earlier
        simpa [valid, fuses, Instruction.withTargets] using joint
      | false =>
        have apart := inductionHypothesis first (.single latest :: earlier)
        simpa [valid, fuses, push, written] using apart

/-- Instructions that nothing before them can be joined with are joined among
    themselves. -/
theorem Closed.fuseAll_eq_ok_iff (closed : builder.Closed) {instructions : List Instruction} :
    builder.fuseAll instructions = .ok next ↔
      (∀ instruction ∈ instructions, instruction.validate = .ok ()) ∧
        next = builder.written ((Instruction.joined instructions).map .single) := by
  cases instructions with
  | nil => simp [fuseAll, Instruction.joined, eq_comm]
  | cons first rest =>
    have pushed : first.validate = .ok () →
        builder.fuse first = .ok ⟨.single first :: builder.latestFirst⟩ := by
      intro valid
      rw [fuse, valid]
      dsimp only
      split
      · rename_i latest earlier held
        have apart : fuses latest first = false := by
          by_contra joins
          obtain ⟨gate, applied, -, fusable⟩ :=
            Instruction.gate?_of_fuses (Bool.of_not_eq_false joins)
          have alone := closed latest earlier held
          rw [applied] at alone
          exact Bool.false_ne_true (alone.symm.trans fusable)
        rw [apart]
        rfl
      · rfl
    cases valid : first.validate with
    | error fault => simp [fuseAll, fuse, valid]
    | ok _ =>
      rw [fuseAll, pushed valid]
      simp [fuseAll_single_eq_ok_iff, valid, Instruction.joined]

/-- A tick is always written. -/
theorem tick_eq (builder : Builder) : builder.tick = .ok (builder.written [.single .tick]) := rfl

end Builder

/-! ### Layers -/

namespace Layer

/-- The instructions of a layer other than a loop, not yet joined. -/
def pieces : Layer → List Instruction
  | reset targets => resetInstructions targets
  | measure targets => targets.map measureInstruction
  | interact couplings => Coupling.instructions couplings
  | interactSwap couplings => Coupling.swapInstructions couplings
  | swap pairs => exchangeInstructions .swap pairs
  | iswap pairs => exchangeInstructions .iswap pairs
  | sqrtProduct pairs => SqrtPair.instructions pairs
  | feedback entries => entries.map feedbackInstruction
  | rotation rotations => rotations.instructions
  | product targets => [.on .measureProduct targets]
  | parity instructions => instructions
  | qubitCoords coordinates => coordinates.entries.map coordsInstruction
  | shiftCoords shift => [⟨.known .shiftCoords, [], shift⟩]
  | empty | loop _ _ => []

/-- The instructions of a layer other than a loop as they are written. -/
def lines (layer : Layer) : List Instruction :=
  if layer.isMetadata then layer.pieces else Instruction.joined layer.pieces

/-- Whether all instructions of a layer are valid. -/
def Writable (layer : Layer) : Prop := ∀ instruction ∈ layer.pieces, instruction.validate = .ok ()

/-- Whether a layer, if it is one of detectors and observables, holds nothing else. -/
def HoldsParities : Layer → Prop
  | parity instructions => ∀ instruction ∈ instructions, instruction.isParity = true
  | _ => True

/-- The tick before a layer, if one is owed and the layer needs it. -/
def tickBefore (owed : Bool) (layer : Layer) : List Operation :=
  if owed && layer.needsTickBefore then [.single .tick] else []

/-- The tick that closes a loop body, if its last slot is still open. -/
def closingTick (body : List Layer) : List Operation :=
  if Schedule.owesTick body then [.single .tick] else []

mutual

/-- The operations that a layer is written as, without ticks around it. -/
def operations : Layer → List Operation
  | loop repetitions body =>
    [.block repetitions (operationsAll false body ++ closingTick body)]
  | layer => layer.lines.map .single

/-- The operations that layers are written as, with the ticks between them. -/
def operationsAll (owed : Bool) : List Layer → List Operation
  | [] => []
  | layer :: rest =>
    layer.tickBefore owed ++ layer.operations ++
      operationsAll (layer.owesTick || (owed && !layer.needsTickBefore)) rest

end

variable {builder next : Builder} {layer : Layer}

/-- The operations of a layer that is no loop are its lines. -/
theorem operations_of_flat (flat : layer.isLoop = false) :
    layer.operations = layer.lines.map .single := by
  cases layer with
  | loop _ _ => cases flat
  | reset _ | measure _ | interact _ | interactSwap _ | swap _ | iswap _ | sqrtProduct _
  | feedback _ | rotation _ | product _ | parity _ | qubitCoords _ | shiftCoords _ | empty => rfl

/-- Metadata is no loop. -/
theorem flat_of_metadata (metadata : layer.isMetadata = true) : layer.isLoop = false := by
  cases layer with
  | parity _ | qubitCoords _ | shiftCoords _ => rfl
  | reset _ | measure _ | interact _ | interactSwap _ | swap _ | iswap _ | sqrtProduct _
  | feedback _ | rotation _ | product _ | empty | loop _ _ => cases metadata

/-- No tick stands before metadata. -/
theorem tickBefore_of_metadata (metadata : layer.isMetadata = true) (owed : Bool) :
    layer.tickBefore owed = [] := by
  rw [tickBefore, needsTickBefore, metadata]
  cases owed <;> rfl

/-- A tick is owed after metadata if it was owed before. -/
theorem owed_of_metadata (metadata : layer.isMetadata = true) (owed : Bool) :
    (layer.owesTick || (owed && !layer.needsTickBefore)) = owed := by
  have untimed : layer.owesTick = false := by
    cases layer with
    | parity _ | qubitCoords _ | shiftCoords _ => rfl
    | reset _ | measure _ | interact _ | interactSwap _ | swap _ | iswap _ | sqrtProduct _
    | feedback _ | rotation _ | product _ | empty | loop _ _ => cases metadata
  rw [untimed, needsTickBefore, metadata]
  cases owed <;> rfl

/-- Metadata is written as it stands, and other instructions are joined. -/
theorem writeFlat_eq (builder : Builder) (layer : Layer) :
    layer.writeFlat builder =
      if layer.isMetadata then builder.appendAll layer.pieces
      else builder.fuseAll layer.pieces := by
  cases layer with
  | shiftCoords shift =>
    simp only [writeFlat, isMetadata, pieces, Builder.appendAll, if_true]
    cases builder.append _ <;> rfl
  | product targets =>
    simp only [writeFlat, isMetadata, pieces, Builder.fuseAll, Bool.false_eq_true, if_false]
    cases builder.fuse _ <;> rfl
  | reset _ | measure _ | interact _ | interactSwap _ | swap _ | iswap _ | sqrtProduct _
  | feedback _ | rotation _ | parity _ | qubitCoords _ | empty | loop _ _ => rfl

/-- A layer is written as its lines if they are valid. -/
theorem writeFlat_eq_ok_iff (closed : layer.isMetadata = false → builder.Closed) :
    layer.writeFlat builder = .ok next ↔
      layer.Writable ∧ next = builder.written (layer.lines.map .single) := by
  rw [writeFlat_eq, lines]
  cases metadata : layer.isMetadata with
  | true => exact Builder.appendAll_eq_ok_iff
  | false => exact (closed metadata).fuseAll_eq_ok_iff

/-- Nothing joins an instruction of metadata. -/
theorem not_fusable_of_metadata (metadata : layer.isMetadata = true)
    (parities : layer.HoldsParities) {instruction : Instruction}
    (member : instruction ∈ layer.lines) : instruction.gate?.any Gate.isFusable = false := by
  rw [lines, if_pos metadata] at member
  cases layer with
  | parity instructions =>
    have named := parities instruction member
    rw [Instruction.isParity, Bool.or_eq_true, beq_iff_eq, beq_iff_eq] at named
    rcases named with applied | applied
    · rw [applied]
      rfl
    · rw [applied]
      rfl
  | qubitCoords coordinates =>
    obtain ⟨entry, -, rfl⟩ := List.mem_map.mp member
    rfl
  | shiftCoords shift =>
    obtain rfl := List.mem_singleton.mp member
    rfl
  | reset _ | measure _ | interact _ | interactSwap _ | swap _ | iswap _ | sqrtProduct _
  | feedback _ | rotation _ | product _ | empty | loop _ _ => cases metadata

/-- A tick is written where one is owed and needed. -/
theorem writeTick_eq (builder : Builder) (owed : Bool) (layer : Layer) :
    writeTick builder owed layer = .ok (builder.written (layer.tickBefore owed)) := by
  rw [writeTick, tickBefore]
  split <;> rfl

/-- Nothing joins what stands before a layer that is not metadata, once the tick is
    written that it needs. -/
theorem closed_ticked {owed : Bool} (closed : owed = false → builder.Closed)
    (timed : layer.isMetadata = false) : (builder.written (layer.tickBefore owed)).Closed := by
  rw [tickBefore]
  cases owed with
  | false => exact closed rfl
  | true =>
    rw [needsTickBefore, timed]
    exact builder.closed_tick

/-- Nothing joins what is written of a layer that owes no tick. -/
theorem closed_operations {owed : Bool} (closed : owed = false → builder.Closed)
    (parities : layer.Within HoldsParities)
    (settled : (layer.owesTick || (owed && !layer.needsTickBefore)) = false) :
    (builder.written (layer.tickBefore owed ++ layer.operations)).Closed := by
  obtain ⟨noTick, notOwed⟩ := Bool.or_eq_false_iff.mp settled
  rw [← Builder.written_written]
  cases metadata : layer.isMetadata with
  | false =>
    cases layer with
    | loop repetitions body =>
      rw [operations]
      exact Builder.closed_block _ repetitions _
    | reset _ | measure _ | interact _ | interactSwap _ | swap _ | iswap _ | sqrtProduct _
    | feedback _ | rotation _ | product _ | empty => cases noTick
    | parity _ | qubitCoords _ | shiftCoords _ => cases metadata
  | true =>
    have flat := flat_of_metadata metadata
    have unowed : owed = false := by simpa [needsTickBefore, metadata] using notOwed
    subst unowed
    rw [operations_of_flat flat]
    refine (closed rfl).singles fun instruction member => ?_
    exact not_fusable_of_metadata metadata ((within_of_flat flat).mp parities) member

mutual

/-- A layer is written as its operations if its instructions are valid. -/
theorem write_eq_ok_iff {builder next : Builder} {layer : Layer}
    (parities : layer.Within HoldsParities) (closed : layer.isMetadata = false → builder.Closed) :
    layer.write builder = .ok next ↔
      layer.Within Writable ∧ next = builder.written layer.operations := by
  cases layer with
  | loop repetitions body =>
    -- The body is written into an empty builder, where no tick is owed.
    have inner : ∀ next, writeAll .empty false body = .ok next ↔ Everywhere Writable body ∧
        next = Builder.empty.written (operationsAll false body) := fun next =>
      writeAll_eq_ok_iff parities fun _ => Builder.closed_empty
    have block : ∀ operations : List Operation,
        builder.appendBlock repetitions (Builder.empty.written operations).circuit =
          builder.written [.block repetitions operations] := fun operations => by
      simp [Builder.appendBlock, Builder.push, Builder.written, Builder.circuit, Builder.empty]
    rw [write, operations, Within]
    cases bodyWritten : writeAll .empty false body with
    | error fault =>
      have refused : ¬ Everywhere Writable body := fun valid => by
        rw [(inner _).mpr ⟨valid, rfl⟩] at bodyWritten
        cases bodyWritten
      simp [refused]
    | ok written =>
      obtain ⟨valid, rfl⟩ := (inner written).mp bodyWritten
      rw [closingTick]
      cases Schedule.owesTick body with
      | true =>
        simp only [if_true, Builder.tick_eq, Builder.written_written, block, valid, true_and,
          Except.ok.injEq]
        exact eq_comm
      | false =>
        simp only [Bool.false_eq_true, if_false, List.append_nil, block, valid, true_and,
          Except.ok.injEq]
        exact eq_comm
  | reset _ | measure _ | interact _ | interactSwap _ | swap _ | iswap _ | sqrtProduct _
  | feedback _ | rotation _ | product _ | parity _ | qubitCoords _ | shiftCoords _ | empty =>
    exact writeFlat_eq_ok_iff closed

/-- Layers are written as their operations if their instructions are valid. -/
theorem writeAll_eq_ok_iff {builder next : Builder} {owed : Bool} {layers : List Layer}
    (parities : Everywhere HoldsParities layers) (closed : owed = false → builder.Closed) :
    writeAll builder owed layers = .ok next ↔
      Everywhere Writable layers ∧ next = builder.written (operationsAll owed layers) := by
  cases layers with
  | nil => simp [writeAll, Everywhere, operationsAll, eq_comm]
  | cons layer rest =>
    have here : ∀ middle, write (builder.written (layer.tickBefore owed)) layer = .ok middle ↔
        layer.Within Writable ∧
          middle = builder.written (layer.tickBefore owed ++ layer.operations) := by
      intro middle
      rw [← Builder.written_written]
      exact write_eq_ok_iff parities.1 (closed_ticked closed)
    rw [writeAll, writeTick_eq, operationsAll, Everywhere]
    dsimp only
    cases layerWritten : write _ layer with
    | error fault =>
      have refused : ¬ layer.Within Writable := fun valid => by
        rw [(here _).mpr ⟨valid, rfl⟩] at layerWritten
        cases layerWritten
      simp [refused]
    | ok middle =>
      obtain ⟨valid, rfl⟩ := (here middle).mp layerWritten
      have later : writeAll _ _ rest = .ok next ↔ _ :=
        writeAll_eq_ok_iff parities.2 (closed_operations closed parities.1)
      rw [Builder.written_written] at later
      simp only [later, valid, true_and]

end

end Layer

namespace Schedule

/-- The operations that a schedule is written as. -/
def operations (schedule : Schedule) : Circuit := Layer.operationsAll false schedule

/-- A schedule is written as its operations if its instructions are valid. -/
theorem toCircuit_eq_ok_iff {schedule : Schedule} {circuit : Circuit}
    (parities : Layer.Everywhere Layer.HoldsParities schedule) :
    schedule.toCircuit = .ok circuit ↔
      Layer.Everywhere Layer.Writable schedule ∧ circuit = schedule.operations := by
  have written : ∀ next, Layer.writeAll .empty false schedule = .ok next ↔
      Layer.Everywhere Layer.Writable schedule ∧ next = Builder.empty.written schedule.operations :=
    fun next => Layer.writeAll_eq_ok_iff parities fun _ => Builder.closed_empty
  rw [toCircuit]
  cases layersWritten : Layer.writeAll .empty false schedule with
  | error fault =>
    have refused : ¬ Layer.Everywhere Layer.Writable schedule := fun valid => by
      rw [(written _).mpr ⟨valid, rfl⟩] at layersWritten
      cases layersWritten
    simp [refused]
  | ok builder =>
    obtain ⟨valid, rfl⟩ := (written builder).mp layersWritten
    simp [valid, Builder.circuit, Builder.written, Builder.empty, eq_comm]

end Schedule

/-! ### Instructions of the operations -/

/-- The instructions of single instructions. -/
theorem Operation.instructionsAll_singles (instructions : List Instruction) :
    Operation.instructionsAll (instructions.map .single) = instructions := by
  induction instructions with
  | nil => rfl
  | cons first rest inductionHypothesis =>
    simp [Operation.instructionsAll, Operation.instructions, inductionHypothesis]

namespace Layer

/-- A tick that stands before a layer is a tick. -/
theorem eq_tick_of_mem_tickBefore {owed : Bool} {layer : Layer} {instruction : Instruction}
    (member : instruction ∈ Operation.instructionsAll (layer.tickBefore owed)) :
    instruction = .tick := by
  rw [tickBefore] at member
  split at member
  · simpa [Operation.instructionsAll, Operation.instructions] using member
  · cases member

/-- A tick that closes a body is a tick. -/
theorem eq_tick_of_mem_closingTick {body : List Layer} {instruction : Instruction}
    (member : instruction ∈ Operation.instructionsAll (closingTick body)) :
    instruction = .tick := by
  rw [closingTick] at member
  split at member
  · simpa [Operation.instructionsAll, Operation.instructions] using member
  · cases member

mutual

/-- What holds of a tick and of all lines of a layer holds of its instructions. -/
theorem forall_mem_operations {holds : Instruction → Prop} (tick : holds .tick) {layer : Layer}
    (each : layer.Within fun layer => ∀ instruction ∈ layer.lines, holds instruction) :
    ∀ instruction ∈ Operation.instructionsAll layer.operations, holds instruction := by
  cases layer with
  | loop repetitions body =>
    have within := forall_mem_operationsAll tick false each
    rw [operations]
    simp only [Operation.instructionsAll, Operation.instructions, Operation.instructionsAll_append,
      List.append_nil]
    intro instruction member
    rcases List.mem_append.mp member with inner | closing
    · exact within instruction inner
    · exact eq_tick_of_mem_closingTick closing ▸ tick
  | reset _ | measure _ | interact _ | interactSwap _ | swap _ | iswap _ | sqrtProduct _
  | feedback _ | rotation _ | product _ | parity _ | qubitCoords _ | shiftCoords _ | empty =>
    rw [operations_of_flat rfl, Operation.instructionsAll_singles]
    exact each

/-- What holds of a tick and of all lines of layers holds of their instructions. -/
theorem forall_mem_operationsAll {holds : Instruction → Prop} (tick : holds .tick) (owed : Bool)
    {layers : List Layer}
    (each : Everywhere (fun layer => ∀ instruction ∈ layer.lines, holds instruction) layers) :
    ∀ instruction ∈ Operation.instructionsAll (operationsAll owed layers), holds instruction := by
  cases layers with
  | nil => nofun
  | cons layer rest =>
    have here := forall_mem_operations tick each.1
    have later := fun owed => forall_mem_operationsAll tick owed each.2
    intro instruction member
    simp only [operationsAll, Operation.instructionsAll_append] at member
    rcases List.mem_append.mp member with before | after
    · rcases List.mem_append.mp before with ticked | inner
      · exact eq_tick_of_mem_tickBefore ticked ▸ tick
      · exact here instruction inner
    · exact later _ instruction after

end

/-- Lines of a layer with valid instructions are valid. -/
theorem validate_of_mem_lines {layer : Layer} (writable : layer.Writable)
    {instruction : Instruction} (member : instruction ∈ layer.lines) :
    instruction.validate = .ok () := by
  rw [lines] at member
  split at member
  · exact writable instruction member
  · exact Instruction.forall_mem_joined Instruction.validate_withTargets writable instruction member

end Layer

/-- The circuit of a schedule is valid. -/
theorem Schedule.valid_toCircuit {schedule : Schedule} {circuit : Circuit}
    (parities : Layer.Everywhere Layer.HoldsParities schedule)
    (written : schedule.toCircuit = .ok circuit) : circuit.Valid := by
  obtain ⟨writable, rfl⟩ := (Schedule.toCircuit_eq_ok_iff parities).mp written
  have tick : Instruction.tick.validate = .ok () := rfl
  refine Layer.forall_mem_operationsAll tick false (writable.imp ?_)
  exact fun layer _ valid instruction member => Layer.validate_of_mem_lines valid member

end StabilizerLayers
