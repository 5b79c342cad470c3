import StabilizerLayers.Proofs.Circuit.Slots
import StabilizerLayers.Proofs.Schedule.LayerInstructions
import StabilizerLayers.Proofs.Schedule.Vocabulary

/-!
# Slots of a schedule

A layer that names no qubit in two entries is written as instructions with spread
units, provided that it acts along Z: an exchange fused with a coupling along other
axes is written as two instructions on the same qubits.

Ticks are placed by what is owed. A layer that takes time starts with an empty slot: a
tick was written where one was owed, and where none was owed the slot was empty
already. Metadata has no units, and a loop body ends with an empty slot because the
tick it owes closes it. So all slots of a written schedule are spread, across loop
entries, iterations and ends.
-/

namespace StabilizerLayers

/-! ### Feedback and products -/

namespace Layer

/-- Whether feedback acts on distinct qubits, and products share none. -/
def Apart : Layer → Prop
  | feedback entries => (entries.map fun entry => entry.id).Nodup
  | product targets => FormsProducts targets ∧ Spread (Instruction.productUnits targets)
  | _ => True

/-- The qubits of products are those of their targets. -/
theorem flatten_productUnits (targets : List Target) :
    (Instruction.productUnits targets).flatten = targets.filterMap Target.qubit? := by
  conv_rhs => rw [← List.flatten_splitBy Target.joins targets]
  exact List.filterMap_flatten.symm

/-- Products on distinct qubits are spread together. -/
theorem spread_productUnits_append {first second : List Target}
    (here : (product first).Apart) (there : (product second).Apart)
    (distinct : ∀ id ∈ (product first).touched, id ∉ (product second).touched) :
    (product (first ++ second)).Apart := by
  refine ⟨here.1.append there.1, ?_⟩
  rw [Instruction.productUnits_append here.1 there.1]
  refine List.pairwise_append.mpr ⟨here.2, there.2, fun unit mine other theirs => ?_⟩
  intro id inUnit inOther
  have held : id ∈ (product first).touched := by
    rw [touched, ← flatten_productUnits]
    exact List.mem_flatten.mpr ⟨unit, mine, inUnit⟩
  refine distinct id held ?_
  rw [touched, ← flatten_productUnits]
  exact List.mem_flatten.mpr ⟨other, theirs, inOther⟩

/-- Merged layers keep feedback and products apart. -/
theorem apart_absorb? {first second both : Layer} (found : first.absorb? second = some both)
    (here : first.Apart) (there : second.Apart) : both.Apart := by
  cases absorbs_of_absorb? found with
  | reset | measure | interact | interactSwap | swap | iswap | sqrtProduct | rotation | parity
  | qubitCoords | shiftCoords => trivial
  | feedback distinct =>
    rw [Apart, List.map_append]
    exact here.append there fun id before after => distinct id before after
  | product distinct => exact spread_productUnits_append here there distinct

/-- Keeping feedback and products apart survives every pass. -/
theorem stable_apart : Stable Apart where
  empty := trivial
  rotation _ := trivial
  absorb := apart_absorb?
  feedback rotations entries here := by
    rw [Apart, feedbackBefore, List.map_map]
    exact here
  interactSwap _ := trivial
  swapInteract _ := trivial
  swaps _ _ _ := trivial
  zForm {layer} flat here := by
    fun_cases Layer.zForm layer with
    | case1 | case7 => exact ⟨(within_of_flat flat).mpr here, trivial⟩
    | case2 | case3 | case4 | case5 | case6 =>
      exact everywhere_between (fun _ => trivial) _ _ trivial
  coords _ := trivial

end Layer

/-- A layer of an instruction keeps feedback and products apart. -/
theorem Instruction.Makes.apart {instruction : Instruction} {layer : Layer}
    (made : instruction.Makes layer) (formed : instruction.FormsProducts) : layer.Apart := by
  cases made with
  | product measures cut _ =>
    rw [productsFrom_eq_products (formed measures)] at cut
    have whole := formed measures _ cut
    refine ⟨FormsProducts.of_isProduct whole, ?_⟩
    rw [productUnits, products_of_isProduct whole]
    exact List.pairwise_singleton _ _
  | feedback _ => exact List.nodup_singleton _
  | parity _ | shiftCoords | qubitCoords _ | measure _ | reset _ | rotation _ | interact _
  | interactSwap _ | swap _ | iswap _ | sqrtProduct _ => trivial

/-- A grouped circuit keeps feedback and products apart. -/
theorem Schedule.apart_ofCircuit {circuit : Circuit} {schedule : Schedule}
    (formed : circuit.FormsProducts) (grouped : Schedule.ofCircuit circuit = .ok schedule) :
    Layer.Everywhere Layer.Apart schedule :=
  everywhere_ofCircuit Layer.stable_apart
    (fun instruction member _ => Instruction.everywhere_layers fun _ made =>
      made.apart (formed instruction member)) grouped

/-! ### Units of a layer -/

namespace Instruction

/-- Instructions that are joined keep their units. -/
theorem units_joinedFrom {latest : Instruction} {rest : List Instruction} (sound : latest.Sound)
    (later : ∀ instruction ∈ rest, instruction.Sound) :
    (joinedFrom latest rest).flatMap units = (latest :: rest).flatMap units := by
  fun_induction joinedFrom latest rest with
  | case1 => rfl
  | case2 latest next rest fuses inductionHypothesis =>
    have nextSound := later next (.head _)
    rw [inductionHypothesis (sound_withTargets fuses sound nextSound)
      fun other member => later other (.tail _ member)]
    simp [units_withTargets fuses sound nextSound]
  | case3 latest next rest _ inductionHypothesis =>
    rw [List.flatMap_cons, inductionHypothesis (later next (.head _))
      fun other member => later other (.tail _ member)]
    rfl

/-- Instructions that are joined keep their units. -/
theorem units_joined {instructions : List Instruction}
    (sound : ∀ instruction ∈ instructions, instruction.Sound) :
    (joined instructions).flatMap units = instructions.flatMap units := by
  cases instructions with
  | nil => rfl
  | cons first rest =>
    exact units_joinedFrom (sound first (.head _)) fun other member => sound other (.tail _ member)

end Instruction

namespace Layer

/-- Keys by their values name no qubit twice. -/
theorem nodup_keysByValue {α : Type} [DecidableEq α] (map : QubitMap α) {labels : List α}
    (distinct : labels.Nodup) (covered : ∀ entry ∈ map.entries, entry.2 ∈ labels) :
    (labels.flatMap fun label => map.keysWhere (· == label)).Nodup := by
  have perm := (perm_entriesByValue map distinct covered).map Prod.fst
  rw [List.map_flatMap] at perm
  simpa [Function.comp_def] using perm.nodup_iff.mpr map.nodup_keys

open Instruction (operands operands_onQubits_single)

/-- Resets name no qubit twice. -/
theorem nodup_operands_reset (targets : QubitMap Basis) :
    ((resetInstructions targets).flatMap operands).Nodup := by
  have named : (resetInstructions targets).flatMap operands =
      Basis.byRank.flatMap fun basis => targets.keysWhere (· == basis) := by
    rw [resetInstructions, List.filterMap_eq_flatMap_toList, List.flatMap_assoc]
    refine List.flatMap_congr fun basis _ => ?_
    split
    · rename_i none
      simp [none]
    · have each : ∀ ids, (Instruction.onQubits (.reset basis) ids).operands = ids :=
        operands_onQubits_single rfl
      simp [each]
  rw [named]
  exact nodup_keysByValue targets (by decide) fun entry _ => by cases entry.2 <;> decide

/-- Rotations name no qubit twice. -/
theorem nodup_operands_rotation (rotations : RotationLayer) :
    (rotations.instructions.flatMap operands).Nodup := by
  have named : rotations.instructions.flatMap operands =
      Rotation.all.tail.flatMap fun turn => rotations.rotations.keysWhere (· == turn) :=
    flatMap_rotationInstructions
      (fun turn gate performs => operands_onQubits_single (Rotation.shape_gate? performs) _)
      fun turn none => none
  have listed : (Rotation.all.tail.flatMap fun turn =>
      rotations.rotations.keysWhere (· == turn)).Sublist
      (Rotation.all.flatMap fun turn => rotations.rotations.keysWhere (· == turn)) :=
    (List.tail_sublist _).flatMap _
  rw [named]
  refine List.Nodup.sublist listed (nodup_keysByValue rotations.rotations (by decide) ?_)
  intro entry _
  rcases entry.2 with _ | (_ | _ | _) | _ | _ <;> decide

/-- Feedback operates on its qubit. -/
theorem operands_feedbackInstruction {entry : Feedback}
    (classical : entry.control.isClassical = true) :
    (feedbackInstruction entry).operands = [entry.id] := by
  obtain ⟨control, id, basis⟩ := entry
  cases control with
  | record _ | sweep _ => rfl
  | qubit _ _ | pauli _ _ _ | combiner => cases classical

variable {layer : Layer}

/-- A layer along Z that takes time, other than of products, operates on no qubit
    twice. -/
theorem nodup_operands (formed : layer.WellFormed) (apart : layer.Apart) (alongZ : layer.AlongZ)
    (timed : layer.isMetadata = false) (single : layer.kind ≠ .product) :
    (layer.pieces.flatMap operands).Nodup := by
  cases layer with
  | reset targets => exact nodup_operands_reset targets
  | rotation rotations => exact nodup_operands_rotation rotations
  | measure targets =>
    rw [pieces, List.flatMap_map]
    exact List.map_eq_flatMap ▸ formed
  | interact couplings =>
    rw [pieces, Coupling.instructions, List.flatMap_map]
    exact Coupling.nodup_sorted formed
  -- Along Z a single gate does both, so no qubit is written twice.
  | interactSwap couplings =>
    have performs : ∀ coupling ∈ Coupling.sorted couplings, coupling.swapGate? = some .czSwap :=
      fun _ member => Coupling.swapGate?_of_mem_sorted alongZ member
    have own : ∀ coupling ∈ Coupling.sorted couplings, coupling.swapGate?.isSome = true := by
      intro coupling member
      rw [performs coupling member]
      rfl
    rw [pieces, Coupling.swapInstructions_eq own, List.flatMap_map,
      List.flatMap_congr fun coupling member => by rw [performs coupling member]]
    exact Coupling.nodup_sorted formed
  | swap pairs | iswap pairs =>
    rw [pieces, exchangeInstructions, List.flatMap_map]
    exact ((sortByKey_perm pairKey pairs).flatMap_right pairQubits).nodup_iff.mpr formed
  | sqrtProduct pairs =>
    have perm : ((sortByKey SqrtPair.key pairs).flatMap fun pair => pairQubits pair.ordered).Perm
        (pairs.flatMap SqrtPair.qubits) :=
      ((sortByKey_perm SqrtPair.key pairs).flatMap_right _).trans
        (List.Perm.flatMap_left _ fun pair _ => perm_pairQubits_smallerFirst _ _)
    rw [pieces, SqrtPair.instructions, List.flatMap_map]
    exact perm.nodup_iff.mpr formed
  | feedback entries =>
    rw [pieces, List.flatMap_map, List.flatMap_congr fun entry member =>
      operands_feedbackInstruction (formed entry member)]
    exact List.map_eq_flatMap ▸ apart
  | product _ => exact absurd rfl single
  | parity _ | qubitCoords _ | shiftCoords _ => cases timed
  | empty | loop _ _ => exact List.nodup_nil

/-- A layer along Z that takes time has spread units. -/
theorem spread_pieces (formed : layer.WellFormed) (apart : layer.Apart) (alongZ : layer.AlongZ)
    (timed : layer.isMetadata = false) : Spread (layer.pieces.flatMap Instruction.units) := by
  by_cases products : layer.kind = .product
  · cases layer with
    | product targets =>
      rw [pieces, List.flatMap_singleton]
      exact apart.2
    | reset _ | measure _ | interact _ | interactSwap _ | swap _ | iswap _ | sqrtProduct _
    | feedback _ | rotation _ | parity _ | qubitCoords _ | shiftCoords _ | empty | loop _ _ =>
      cases products
  · exact Instruction.spread_of_nodup (nodup_operands formed apart alongZ timed products)

/-! ### Lines of a layer -/

/-- The instructions of a layer that takes time, other than of products, act on single
    qubits or on pairs. -/
theorem shape_of_mem_pieces {instruction : Instruction} (timed : layer.isMetadata = false)
    (single : layer.kind ≠ .product) (member : instruction ∈ layer.pieces) :
    ∃ gate, instruction.gate? = some gate ∧ (gate.shape = .single ∨ gate.shape = .pair) := by
  cases layer with
  | reset targets =>
    obtain ⟨basis, ids, -, rfl⟩ := exists_of_mem_resetInstructions member
    exact ⟨_, rfl, .inl rfl⟩
  | measure targets =>
    obtain ⟨target, -, rfl⟩ := List.mem_map.mp member
    exact ⟨_, rfl, .inl rfl⟩
  | interact couplings =>
    obtain ⟨coupling, -, rfl⟩ := List.mem_map.mp member
    exact ⟨_, rfl, .inr rfl⟩
  | interactSwap couplings =>
    obtain ⟨coupling, -, made⟩ := Coupling.cases_of_mem_swapInstructions member
    rcases made with ⟨gate, performs, rfl⟩ | ⟨-, rfl | rfl⟩
    · exact ⟨gate, rfl, .inr (Coupling.shape_swapGate? performs)⟩
    · exact ⟨_, rfl, .inr rfl⟩
    · exact ⟨_, rfl, .inr rfl⟩
  | swap pairs | iswap pairs =>
    obtain ⟨pair, -, rfl⟩ := List.mem_map.mp member
    exact ⟨_, rfl, .inr rfl⟩
  | sqrtProduct pairs =>
    obtain ⟨pair, -, rfl⟩ := List.mem_map.mp member
    exact ⟨_, rfl, .inr rfl⟩
  | feedback entries =>
    obtain ⟨entry, -, rfl⟩ := List.mem_map.mp member
    exact ⟨_, rfl, .inr rfl⟩
  | rotation rotations =>
    obtain ⟨turn, gate, ids, performs, rfl⟩ := RotationLayer.exists_of_mem_instructions member
    exact ⟨gate, rfl, .inl (Rotation.shape_gate? performs)⟩
  | product _ => exact absurd rfl single
  | parity _ | qubitCoords _ | shiftCoords _ => cases timed
  | empty | loop _ _ => cases member

/-- The instructions of a formed layer that takes time measure products side by side,
    and none is a tick. -/
theorem formsProducts_of_mem_pieces {instruction : Instruction} (formed : layer.WellFormed)
    (timed : layer.isMetadata = false) (member : instruction ∈ layer.pieces) :
    instruction.FormsProducts ∧ instruction.applies .tick = false := by
  by_cases products : layer.kind = .product
  · cases layer with
    | product targets =>
      obtain rfl := List.mem_singleton.mp member
      exact ⟨fun _ => formed, rfl⟩
    | reset _ | measure _ | interact _ | interactSwap _ | swap _ | iswap _ | sqrtProduct _
    | feedback _ | rotation _ | parity _ | qubitCoords _ | shiftCoords _ | empty | loop _ _ =>
      cases products
  · obtain ⟨gate, applied, shape⟩ := shape_of_mem_pieces timed products member
    refine ⟨fun measures => ?_, ?_⟩
    · obtain rfl := Option.some.inj (applied.symm.trans measures)
      rcases shape with shape | shape <;> cases shape
    · rw [Instruction.applies, applied]
      refine beq_eq_false_iff_ne.mpr fun ticks => ?_
      obtain rfl := Option.some.inj ticks
      rcases shape with shape | shape <;> cases shape

/-- Metadata has no units, and none of it is a tick. -/
theorem units_of_metadata {instruction : Instruction} (parities : layer.HoldsParities)
    (metadata : layer.isMetadata = true) (member : instruction ∈ layer.pieces) :
    instruction.units = [] ∧ instruction.applies .tick = false := by
  cases layer with
  | parity instructions =>
    have named := parities instruction member
    rw [Instruction.isParity, Bool.or_eq_true, beq_iff_eq, beq_iff_eq] at named
    rcases named with applied | applied
    · simp [Instruction.units, Instruction.applies, applied, Instruction.gateUnits]
    · simp [Instruction.units, Instruction.applies, applied, Instruction.gateUnits]
  | qubitCoords coordinates =>
    obtain ⟨entry, -, rfl⟩ := List.mem_map.mp member
    exact ⟨rfl, rfl⟩
  | shiftCoords shift =>
    obtain rfl := List.mem_singleton.mp member
    exact ⟨rfl, rfl⟩
  | reset _ | measure _ | interact _ | interactSwap _ | swap _ | iswap _ | sqrtProduct _
  | feedback _ | rotation _ | product _ | empty | loop _ _ => cases metadata

/-- What is asked of a layer for its units to be spread where it is written. -/
structure Spreadable (layer : Layer) : Prop where
  formed : layer.WellFormed
  apart : layer.Apart
  alongZ : layer.AlongZ
  writable : layer.Writable
  parities : layer.HoldsParities

variable {held : List (List Qubit)}

/-- Metadata leaves the open slot as it is. -/
theorem Spreadable.leads_metadata (here : layer.Spreadable) (metadata : layer.isMetadata = true)
    (spread : Spread held) : Leads held layer.lines held := by
  rw [lines, if_pos metadata]
  have none : layer.pieces.flatMap Instruction.units = [] :=
    List.flatMap_eq_nil_iff.mpr fun instruction member =>
      (units_of_metadata here.parities metadata member).1
  have grown : held ++ layer.pieces.flatMap Instruction.units = held := by
    rw [none, List.append_nil]
  have led : Leads held layer.pieces (held ++ layer.pieces.flatMap Instruction.units) :=
    Leads.worked (fun instruction member => (units_of_metadata here.parities metadata member).2)
      (by rwa [grown])
  rwa [grown] at led

/-- A layer that takes time fills an empty slot. -/
theorem Spreadable.leads_timed (here : layer.Spreadable) (timed : layer.isMetadata = false) :
    ∃ last, Leads [] layer.lines last := by
  have each : ∀ instruction ∈ layer.pieces, instruction.Sound := fun instruction member =>
    ⟨here.writable instruction member, (formsProducts_of_mem_pieces here.formed timed member).1⟩
  have units : (Instruction.joined layer.pieces).flatMap Instruction.units =
      layer.pieces.flatMap Instruction.units := Instruction.units_joined each
  rw [lines, timed]
  refine ⟨_, Leads.worked (Instruction.forall_mem_joined ?_ fun instruction member =>
    (formsProducts_of_mem_pieces here.formed timed member).2) ?_⟩
  · exact fun _ works _ => works
  · rw [List.nil_append, if_neg Bool.false_ne_true, units]
    exact spread_pieces here.formed here.apart here.alongZ timed

/-! ### Schedules -/

/-- The tick that a layer needs closes the open slot. -/
theorem leads_tickBefore {owed : Bool} (timed : layer.isMetadata = false) (spread : Spread held)
    (settled : owed = false → held = []) :
    Leads held (Operation.streamAll (layer.tickBefore owed)) [] := by
  rw [tickBefore, needsTickBefore, timed]
  cases owed with
  | true => exact .ticked spread
  | false =>
    obtain rfl := settled rfl
    exact .done .nil

/-- A body whose slots are spread can be repeated once it is closed. -/
theorem leads_block {last : List (List Qubit)} {body : List Layer}
    (led : Leads [] (Operation.streamAll (operationsAll false body)) last)
    (settled : Schedule.owesTick body = false → last = []) (repetitions : UInt64) :
    Leads [] (Operation.streamAll (loop repetitions body).operations) [] := by
  have closed : Leads last (Operation.streamAll (closingTick body)) [] := by
    rw [closingTick]
    cases owes : Schedule.owesTick body with
    | true => exact .ticked led.spread_last
    | false =>
      obtain rfl := settled owes
      exact .done .nil
  have whole := led.append closed
  rw [← Operation.streamAll_append] at whole
  rw [operations, Operation.streamAll, Operation.stream, Operation.streamAll, List.append_nil]
  exact whole.repeated repetitions.toNat

mutual

/-- A layer that takes time leads on from an empty slot, and leaves an empty slot if it
    owes no tick. -/
theorem leads_operations {layer : Layer} (each : layer.Within Spreadable)
    (timed : layer.isMetadata = false) :
    ∃ last, Leads [] (Operation.streamAll layer.operations) last ∧
      (layer.owesTick = false → last = []) := by
  cases layer with
  | loop repetitions body =>
    obtain ⟨last, led, settled⟩ := leads_operationsAll false each .nil fun _ => rfl
    exact ⟨[], leads_block led settled repetitions, fun _ => rfl⟩
  | reset _ | measure _ | interact _ | interactSwap _ | swap _ | iswap _ | sqrtProduct _
  | feedback _ | rotation _ | product _ | empty =>
    obtain ⟨last, led⟩ := Spreadable.leads_timed each timed
    rw [operations_of_flat rfl, Operation.streamAll_singles]
    exact ⟨last, led, nofun⟩
  | parity _ | qubitCoords _ | shiftCoords _ => cases timed

/-- Layers lead on from a slot that is empty if no tick is owed, and leave such a slot. -/
theorem leads_operationsAll {layers : List Layer} {held : List (List Qubit)} (owed : Bool)
    (each : Everywhere Spreadable layers) (spread : Spread held)
    (settled : owed = false → held = []) :
    ∃ last, Leads held (Operation.streamAll (operationsAll owed layers)) last ∧
      (Schedule.owesTickAfter owed layers = false → last = []) := by
  cases layers with
  | nil => exact ⟨held, .done spread, settled⟩
  | cons layer rest =>
    rw [operationsAll, Operation.streamAll_append, Operation.streamAll_append,
      Schedule.owesTickAfter]
    cases metadata : layer.isMetadata with
    | true =>
      have flat := flat_of_metadata metadata
      have led := ((within_of_flat flat).mp each.1).leads_metadata metadata spread
      obtain ⟨last, later, closed⟩ := leads_operationsAll owed each.2 spread settled
      rw [tickBefore_of_metadata metadata, owed_of_metadata metadata, operations_of_flat flat,
        Operation.streamAll_singles]
      exact ⟨last, led.append later, closed⟩
    | false =>
      obtain ⟨middle, led, empty⟩ := leads_operations each.1 metadata
      obtain ⟨last, later, closed⟩ := leads_operationsAll
        (layer.owesTick || (owed && !layer.needsTickBefore)) each.2 led.spread_last
        fun none => empty (Bool.or_eq_false_iff.mp none).1
      exact ⟨last, ((leads_tickBefore metadata spread settled).append led).append later, closed⟩

end

end Layer

/-- The circuit of a schedule has spread slots. -/
theorem Schedule.spreadsSlots_operations {schedule : Schedule}
    (each : Layer.Everywhere Layer.Spreadable schedule) : schedule.operations.SpreadsSlots := by
  obtain ⟨last, led, -⟩ := Layer.leads_operationsAll false each .nil fun _ => rfl
  exact Circuit.spreadsSlots_of_leads led

end StabilizerLayers
