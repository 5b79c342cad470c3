import StabilizerLayers.Proofs.Circuit.Fusing
import StabilizerLayers.Proofs.Schedule.Entries
import StabilizerLayers.Proofs.Schedule.Rearranging

/-!
# Every pair is written once

Written and joined, the pairs of a layer can still be told apart. What is asked of a pair is
found exactly once among the portions of the circuit, in one of its spellings, and nothing
else is found there. A coupling that is followed by an exchange and has no gate of its own is
found twice: once as the coupling and once as the exchange.

Layers that hold the same pairs are written as the same circuit, so writing a layer of pairs
is a normal form.
-/

namespace StabilizerLayers

/-! ### Spellings -/

/-- A gate on two qubits, in order. -/
structure Application where
  gate : Gate
  first : Qubit
  second : Qubit
deriving DecidableEq, Repr

namespace Application

/-- The instruction that consists of the application alone. -/
def instruction (application : Application) : Instruction :=
  .onQubits application.gate [application.first, application.second]

/-- Whether an instruction is the application and nothing else. -/
def isWrittenAs (application : Application) (instruction : Instruction) : Bool :=
  instruction.applies application.gate &&
    instruction.targets == [.plain application.first, .plain application.second] &&
    instruction.arguments.isEmpty

/-- The instruction of an application is that of no other. -/
theorem isWrittenAs_instruction {application other : Application} :
    application.isWrittenAs other.instruction = true ↔ other = application := by
  obtain ⟨gate, first, second⟩ := application
  obtain ⟨otherGate, otherFirst, otherSecond⟩ := other
  simp [isWrittenAs, instruction, Instruction.onQubits, Instruction.on, Instruction.applies,
    Instruction.gate?, Operator.gate?, Target.plain]

/-- A gate on two qubits that may stand in any order. -/
def eitherWay (gate : Gate) (pair : Qubit × Qubit) : List Application :=
  [⟨gate, pair.1, pair.2⟩, ⟨gate, pair.2, pair.1⟩]

/-- The smaller qubit may come first. -/
theorem smallerFirst_mem_eitherWay (gate : Gate) (first second : Qubit) :
    ⟨gate, (smallerFirst first second).1, (smallerFirst first second).2⟩ ∈
      eitherWay gate (first, second) := by
  rw [smallerFirst]
  split <;> simp [eitherWay]

/-- Either way the qubits are those of the pair. -/
theorem first_mem_of_mem_eitherWay {gate : Gate} {pair : Qubit × Qubit}
    {application : Application} (member : application ∈ eitherWay gate pair) :
    application.first ∈ pairQubits pair := by
  rcases List.mem_pair.mp member with rfl | rfl
  · exact .head _
  · exact .tail _ (.head _)

end Application

namespace Coupling

/-- A gate on the qubits of a coupling, in their order. -/
def application (coupling : Coupling) (gate : Gate) : Application :=
  ⟨gate, coupling.first.id, coupling.second.id⟩

/-- The two ways to write a coupling. -/
def spellings (coupling : Coupling) : List Application :=
  [coupling, coupling.reversed].map fun either => either.application either.gate

/-- The ways to write a coupling that is followed by an exchange as one gate. -/
def swapSpellings (coupling : Coupling) : List Application :=
  [coupling, coupling.reversed].filterMap fun either => either.swapGate?.map either.application

/-- What is to be written of a coupling that is followed by an exchange: one gate if there is one,
    otherwise the coupling and the exchange. -/
def swapDemands (coupling : Coupling) : List (List Application) :=
  if coupling.swapSpellings.isEmpty then
    [coupling.spellings, Application.eitherWay .swap (coupling.first.id, coupling.second.id)]
  else [coupling.swapSpellings]

end Coupling

/-- What is to be written of the pairs of a layer, each with its possible spellings. -/
def Layer.demands : Layer → List (List Application)
  | interact couplings => couplings.map Coupling.spellings
  | interactSwap couplings => couplings.flatMap Coupling.swapDemands
  | swap pairs => pairs.map (Application.eitherWay .swap)
  | iswap pairs => pairs.map (Application.eitherWay .iswap)
  | sqrtProduct pairs => pairs.map fun pair =>
      Application.eitherWay (.sqrtProduct pair.basis pair.dagger) (pair.first, pair.second)
  | _ => []

/-! ### Everything is written once -/

/-- Whether applications meet demands one by one. -/
abbrev Meets (demands : List (List Application)) (applications : List Application) : Prop :=
  List.Forall₂ (fun demand application => application ∈ demand) demands applications

section Meeting

variable {demands : List (List Application)} {applications : List Application}

/-- Applications that meet other demands do not meet one that has nothing in common with them. -/
theorem count_of_disjoint (meets : Meets demands applications) {demand : List Application}
    (apart : ∀ other ∈ demands, demand.Disjoint other) :
    applications.countP (fun application => decide (application ∈ demand)) = 0 := by
  induction meets with
  | nil => rfl
  | @cons _ application _ _ met _ inductionHypothesis =>
    obtain ⟨here, later⟩ := List.forall_mem_cons.mp apart
    have notMet : application ∉ demand := fun held => here held met
    simp [notMet, inductionHypothesis later]

/-- Applications that meet demands one by one meet each demand once, if no two demands can be met
    by the same application. -/
theorem count_of_meets (meets : Meets demands applications)
    (apart : demands.Pairwise List.Disjoint) {demand : List Application}
    (member : demand ∈ demands) :
    applications.countP (fun application => decide (application ∈ demand)) = 1 := by
  induction meets with
  | nil => cases member
  | @cons _ application _ _ met later inductionHypothesis =>
    obtain ⟨different, further⟩ := List.pairwise_cons.mp apart
    rcases List.mem_cons.mp member with rfl | inRest
    · simp [count_of_disjoint later different, met]
    · have notMet : application ∉ demand := fun held => different demand inRest met held
      simp [notMet, inductionHypothesis further inRest]

/-- Entries that are each written in one of their spellings. -/
theorem meets_map {α : Type} {entries : List α} {spellings : α → List Application}
    {written : α → Application} (each : ∀ entry, written entry ∈ spellings entry) :
    Meets (entries.map spellings) (entries.map written) := by
  rw [Meets, List.forall₂_map_left_iff, List.forall₂_map_right_iff]
  exact List.forall₂_same.mpr fun entry _ => each entry

/-- Demands of entries on different qubits have nothing in common. -/
theorem pairwise_disjoint_flatMap {α : Type} {entries : List α} {qubits : α → List Qubit}
    (once : (entries.flatMap qubits).Nodup) {asked : α → List (List Application)}
    (within : ∀ entry ∈ entries, (asked entry).Pairwise List.Disjoint)
    (named : ∀ entry, ∀ demand ∈ asked entry, ∀ application ∈ demand,
      application.first ∈ qubits entry) :
    (entries.flatMap asked).Pairwise List.Disjoint := by
  refine List.pairwise_flatMap.mpr ⟨within, ?_⟩
  refine (List.nodup_flatMap.mp once).2.imp fun {entry other} apart => ?_
  intro demand here another there application inDemand inAnother
  exact apart (named entry demand here application inDemand)
    (named other another there application inAnother)

/-- Demands of entries on different qubits, one for each entry. -/
theorem pairwise_disjoint_map {α : Type} {entries : List α} {qubits : α → List Qubit}
    (once : (entries.flatMap qubits).Nodup) {spellings : α → List Application}
    (named : ∀ entry, ∀ application ∈ spellings entry, application.first ∈ qubits entry) :
    (entries.map spellings).Pairwise List.Disjoint := by
  rw [List.map_eq_flatMap]
  refine pairwise_disjoint_flatMap once (fun _ _ => List.pairwise_singleton _ _) ?_
  intro entry demand asked
  obtain rfl := List.mem_singleton.mp asked
  exact named entry

end Meeting

namespace Coupling

/-- In writing order a coupling stands one way or the other. -/
theorem canonical_mem (coupling : Coupling) :
    coupling.canonical ∈ [coupling, coupling.reversed] := by
  rw [canonical]
  split <;> simp

/-- What is written of a coupling is one of its spellings. -/
theorem application_canonical_mem (coupling : Coupling) :
    coupling.canonical.application coupling.canonical.gate ∈ coupling.spellings :=
  List.mem_map.mpr ⟨coupling.canonical, coupling.canonical_mem, rfl⟩

/-- The spellings of a coupling name its qubits. -/
theorem first_mem_of_mem_spellings {coupling : Coupling} {application : Application}
    (member : application ∈ coupling.spellings) : application.first ∈ coupling.qubits := by
  rcases List.mem_pair.mp member with rfl | rfl
  · exact .head _
  · exact .tail _ (.head _)

/-- In writing order a coupling has a gate of its own for the exchange if it has one either
    way. -/
theorem swapSpellings_eq_nil_iff (coupling : Coupling) :
    coupling.swapSpellings = [] ↔ coupling.canonical.swapGate? = none := by
  obtain ⟨⟨id, basis⟩, otherId, otherBasis⟩ := coupling
  -- Z comes first in writing order, so the axes decide, and the qubits only between equal axes.
  by_cases less : otherId < id <;> cases basis <;> cases otherBasis <;>
    simp [swapSpellings, reversed, canonical, isBackward, swapGate?, Basis.rank, less]

/-- What is written of a coupling that is followed by an exchange. -/
def swapApplications (coupling : Coupling) : List Application :=
  match coupling.swapGate? with
  | some gate => [coupling.application gate]
  | none => [coupling.application coupling.gate, ⟨.swap, coupling.pair.1, coupling.pair.2⟩]

/-- The qubits without order are the same in writing order. -/
theorem unordered_canonical (coupling : Coupling) : coupling.canonical.pair = coupling.pair := by
  rw [canonical]
  split
  · exact smallerFirst_comm _ _
  · rfl

/-- What is written of a coupling that is followed by an exchange meets what is asked. -/
theorem meets_swapDemands (coupling : Coupling) :
    Meets coupling.swapDemands coupling.canonical.swapApplications := by
  rw [swapDemands, swapApplications]
  cases performs : coupling.canonical.swapGate? with
  | none =>
    rw [(swapSpellings_eq_nil_iff coupling).mpr performs, unordered_canonical]
    exact .cons coupling.application_canonical_mem
      (.cons (Application.smallerFirst_mem_eitherWay _ _ _) .nil)
  | some gate =>
    have listed : coupling.canonical.application gate ∈ coupling.swapSpellings :=
      List.mem_filterMap.mpr ⟨coupling.canonical, coupling.canonical_mem, by simp [performs]⟩
    have filled : coupling.swapSpellings.isEmpty = false :=
      List.isEmpty_eq_false_iff.mpr (List.ne_nil_of_mem listed)
    rw [filled]
    exact .cons listed .nil

/-- What is asked for a coupling that is followed by an exchange has nothing in common. -/
theorem pairwise_disjoint_swapDemands (coupling : Coupling) :
    coupling.swapDemands.Pairwise List.Disjoint := by
  rw [swapDemands]
  split
  · refine List.pairwise_pair.mpr fun application coupled exchanged => ?_
    simp only [spellings, List.map_cons, List.map_nil, List.mem_cons, List.not_mem_nil,
      or_false] at coupled
    rcases coupled with rfl | rfl <;> simp [Application.eitherWay, application, gate] at exchanged
  · exact List.pairwise_singleton _ _

/-- What is asked for a coupling that is followed by an exchange names its qubits. -/
theorem first_mem_of_mem_swapDemands {coupling : Coupling} {demand : List Application}
    (asked : demand ∈ coupling.swapDemands) {application : Application}
    (member : application ∈ demand) : application.first ∈ coupling.qubits := by
  rw [swapDemands] at asked
  split at asked
  · rcases List.mem_pair.mp asked with rfl | rfl
    · exact first_mem_of_mem_spellings member
    · exact Application.first_mem_of_mem_eitherWay member
  · obtain rfl := List.mem_singleton.mp asked
    obtain ⟨either, stands, performs⟩ := List.mem_filterMap.mp member
    obtain ⟨gate, -, rfl⟩ := Option.map_eq_some_iff.mp performs
    rcases List.mem_pair.mp stands with rfl | rfl
    · exact .head _
    · exact .tail _ (.head _)

/-- Couplings with a gate of their own, then the others, then their exchanges are all that is
    written of the couplings one by one. -/
theorem parts_perm (inOrder : List Coupling) :
    ((inOrder.filterMap fun coupling => coupling.swapGate?.map coupling.instruction) ++
      ((inOrder.filter fun coupling => coupling.swapGate?.isNone).map fun coupling =>
        coupling.instruction coupling.gate) ++
      ((inOrder.filter fun coupling => coupling.swapGate?.isNone).map fun coupling =>
        Instruction.onQubits .swap (pairQubits coupling.pair))).Perm
      ((inOrder.flatMap swapApplications).map Application.instruction) := by
  induction inOrder with
  | nil => exact .refl _
  | cons coupling rest inductionHypothesis =>
    rw [List.flatMap_cons, List.map_append, swapApplications]
    cases performs : coupling.swapGate? with
    | some gate =>
      simp only [List.filterMap_cons, List.filter_cons, performs]
      exact inductionHypothesis.cons _
    | none =>
      simp only [List.filterMap_cons, List.filter_cons, performs, Option.map_none,
        Option.isNone_none, if_true, List.map_cons]
      -- The coupling goes to the front past the gates, then the exchange behind it.
      rw [List.append_assoc, List.cons_append]
      refine List.perm_middle.trans (.cons _ ?_)
      rw [← List.append_assoc]
      exact List.perm_middle.trans (inductionHypothesis.cons _)

/-- Couplings that are followed by exchanges are written one by one, up to order. -/
theorem swapInstructions_perm (couplings : List Coupling) :
    (swapInstructions couplings).Perm
      ((couplings.flatMap fun coupling => coupling.canonical.swapApplications).map
        Application.instruction) := by
  have sorting : (sorted couplings).Perm (couplings.map canonical) := sortByKey_perm key _
  refine (parts_perm (sorted couplings)).trans ?_
  have moved := (sorting.flatMap_right swapApplications).map Application.instruction
  rwa [List.flatMap_map] at moved

end Coupling

namespace Layer

/-- Whether a layer is one of pairs. -/
def holdsPairs : Layer → Bool
  | interact _ | interactSwap _ | swap _ | iswap _ | sqrtProduct _ => true
  | _ => false

/-- What is written of the pairs of a layer, in the order of the layer. -/
def applications : Layer → List Application
  | interact couplings => couplings.map fun coupling =>
      coupling.canonical.application coupling.canonical.gate
  | interactSwap couplings => couplings.flatMap fun coupling => coupling.canonical.swapApplications
  | swap pairs => pairs.map fun pair => ⟨.swap, pair.1, pair.2⟩
  | iswap pairs => pairs.map fun pair => ⟨.iswap, pair.1, pair.2⟩
  | sqrtProduct pairs => pairs.map fun pair =>
      ⟨.sqrtProduct pair.basis pair.dagger, pair.ordered.1, pair.ordered.2⟩
  | _ => []

/-- A layer of pairs is written as its pairs one by one, up to order. -/
theorem pieces_perm {layer : Layer} (paired : layer.holdsPairs = true) :
    layer.pieces.Perm (layer.applications.map Application.instruction) := by
  cases layer with
  | interact couplings =>
    have sorting : (Coupling.sorted couplings).Perm (couplings.map Coupling.canonical) :=
      sortByKey_perm Coupling.key _
    have moved := sorting.map fun coupling => coupling.instruction coupling.gate
    rw [List.map_map] at moved
    rw [applications, List.map_map]
    exact moved
  | interactSwap couplings => exact Coupling.swapInstructions_perm couplings
  | swap pairs | iswap pairs =>
    rw [applications, List.map_map]
    exact (sortByKey_perm pairKey pairs).map _
  | sqrtProduct pairs =>
    rw [applications, List.map_map]
    exact (sortByKey_perm SqrtPair.key pairs).map _
  | reset _ | measure _ | feedback _ | rotation _ | product _ | parity _ | qubitCoords _
  | shiftCoords _ | empty | loop _ _ => cases paired

/-- What is written of a layer meets what is asked of it, one by one. -/
theorem meets_demands (layer : Layer) : Meets layer.demands layer.applications := by
  cases layer with
  | interact couplings => exact meets_map Coupling.application_canonical_mem
  | interactSwap couplings =>
    exact List.rel_flatMap (List.forall₂_same.mpr fun _ _ => rfl)
      fun coupling _ same => same ▸ coupling.meets_swapDemands
  | swap pairs | iswap pairs => exact meets_map fun pair => .head _
  | sqrtProduct pairs =>
    exact meets_map fun pair => Application.smallerFirst_mem_eitherWay _ pair.first pair.second
  | reset _ | measure _ | feedback _ | rotation _ | product _ | parity _ | qubitCoords _
  | shiftCoords _ | empty | loop _ _ => exact .nil

/-- What is asked of a layer that names no qubit twice has nothing in common. -/
theorem pairwise_disjoint_demands {layer : Layer} (once : layer.touched.Nodup) :
    layer.demands.Pairwise List.Disjoint := by
  cases layer with
  | interact couplings =>
    exact pairwise_disjoint_map once fun _ _ => Coupling.first_mem_of_mem_spellings
  | interactSwap couplings =>
    exact pairwise_disjoint_flatMap once
      (fun coupling _ => coupling.pairwise_disjoint_swapDemands)
      fun _ _ asked _ => Coupling.first_mem_of_mem_swapDemands asked
  | swap pairs | iswap pairs =>
    exact pairwise_disjoint_map once fun _ _ => Application.first_mem_of_mem_eitherWay
  | sqrtProduct pairs =>
    exact pairwise_disjoint_map once fun pair _ => Application.first_mem_of_mem_eitherWay
  | reset _ | measure _ | feedback _ | rotation _ | product _ | parity _ | qubitCoords _
  | shiftCoords _ | empty | loop _ _ => exact .nil

/-- Only gates on pairs are written of a layer of pairs. -/
theorem shape_of_mem_applications {layer : Layer} {application : Application}
    (member : application ∈ layer.applications) : application.gate.shape = .pair := by
  cases layer with
  | interact _ | swap _ | iswap _ | sqrtProduct _ =>
    obtain ⟨entry, -, rfl⟩ := List.mem_map.mp member
    rfl
  | interactSwap couplings =>
    obtain ⟨coupling, -, written⟩ := List.mem_flatMap.mp member
    rw [Coupling.swapApplications] at written
    split at written
    · rename_i gate performs
      obtain rfl := List.mem_singleton.mp written
      exact Coupling.shape_swapGate? performs
    · rcases List.mem_pair.mp written with rfl | rfl
      · rfl
      · rfl
  | reset _ | measure _ | feedback _ | rotation _ | product _ | parity _ | qubitCoords _
  | shiftCoords _ | empty | loop _ _ => cases member

end Layer

/-! ### Joined pairs -/

namespace Instruction

/-- Whether an instruction is a valid one on pairs, without arguments. -/
structure ActsOnPairs (instruction : Instruction) : Prop where
  valid : instruction.validate = .ok ()
  bare : instruction.arguments = []
  paired : ∃ gate, instruction.gate? = some gate ∧ gate.shape = .pair

namespace ActsOnPairs

variable {latest next : Instruction}

/-- Joined instructions on pairs are one on pairs. -/
theorem withTargets (fuses : Builder.fuses latest next = true) (here : latest.ActsOnPairs)
    (there : next.ActsOnPairs) : (latest.withTargets next.targets).ActsOnPairs :=
  ⟨validate_withTargets fuses here.valid there.valid, here.bare, here.paired⟩

/-- Joined instructions on pairs have the pairs of both. -/
theorem portions_withTargets (fuses : Builder.fuses latest next = true) (here : latest.ActsOnPairs)
    (there : next.ActsOnPairs) :
    (latest.withTargets next.targets).portions = latest.portions ++ next.portions := by
  have separate : ¬ latest.RunsInto next := by
    rintro ⟨measures, -⟩
    obtain ⟨gate, applied, shape⟩ := there.paired
    obtain rfl : gate = .measureProduct := Option.some.inj (applied.symm.trans measures)
    cases shape
  have operators : latest.operator = next.operator := by
    simp only [Builder.fuses, Bool.and_eq_true] at fuses
    exact eq_of_beq fuses.1.2
  rw [portions, (targetPortions_withTargets_iff fuses here.valid).mpr separate, List.map_append,
    portions, portions]
  refine congrArg₂ _ rfl (List.map_congr_left fun targets _ => ?_)
  rw [Instruction.withTargets, Instruction.mk.injEq]
  exact ⟨operators, rfl, here.bare.trans there.bare.symm⟩

/-- Joining instructions on pairs neither loses a pair nor adds one. -/
theorem flatMap_portions_joinedFrom {rest : List Instruction} (here : latest.ActsOnPairs)
    (later : ∀ instruction ∈ rest, instruction.ActsOnPairs) :
    (joinedFrom latest rest).flatMap portions = latest.portions ++ rest.flatMap portions := by
  fun_induction joinedFrom latest rest with
  | case1 latest => simp
  | case2 latest next rest fuses inductionHypothesis =>
    obtain ⟨there, further⟩ := List.forall_mem_cons.mp later
    rw [inductionHypothesis (here.withTargets fuses there) further,
      portions_withTargets fuses here there, List.append_assoc, List.flatMap_cons]
  | case3 latest next rest _ inductionHypothesis =>
    obtain ⟨there, further⟩ := List.forall_mem_cons.mp later
    rw [List.flatMap_cons, inductionHypothesis there further, List.flatMap_cons]

/-- Joining instructions on pairs neither loses a pair nor adds one. -/
theorem flatMap_portions_joined {instructions : List Instruction}
    (each : ∀ instruction ∈ instructions, instruction.ActsOnPairs) :
    (joined instructions).flatMap portions = instructions.flatMap portions := by
  cases instructions with
  | nil => rfl
  | cons first rest =>
    obtain ⟨here, later⟩ := List.forall_mem_cons.mp each
    rw [joined, flatMap_portions_joinedFrom here later, List.flatMap_cons]

end ActsOnPairs

end Instruction

/-- An application on its own is its only portion. -/
theorem Application.portions_instruction {application : Application}
    (shape : application.gate.shape = .pair) :
    application.instruction.portions = [application.instruction] := by
  rw [Instruction.portions, Instruction.targetPortions]
  split
  · rename_i unknown
    cases unknown
  · rename_i measures
    rw [Option.some.inj measures] at shape
    cases shape
  · rename_i gate _ applied
    obtain rfl := Option.some.inj applied
    rw [shape]
    rfl

/-- How many portions of a circuit are one of some applications. -/
def Circuit.occurrences (circuit : Circuit) (demand : List Application) : Nat :=
  circuit.portions.countP fun portion => demand.any (·.isWrittenAs portion)

/-- Portions of single instructions. -/
theorem Circuit.portions_singles (instructions : List Instruction) :
    Circuit.portions (instructions.map .single) = instructions.flatMap Instruction.portions := by
  rw [portions, List.flatMap_map]

namespace Layer

variable {layer : Layer}

/-- A layer of pairs that names no qubit twice has valid instructions. -/
theorem writable_of_once (paired : layer.holdsPairs = true) (once : layer.touched.Nodup) :
    layer.Writable := by
  cases layer with
  | interact _ | interactSwap _ | swap _ | iswap _ | sqrtProduct _ =>
    exact writable_of_follows (WellFormed.follows once trivial)
  | reset _ | measure _ | feedback _ | rotation _ | product _ | parity _ | qubitCoords _
  | shiftCoords _ | empty | loop _ _ => cases paired

/-- A layer of pairs is written by joining its instructions. -/
theorem toCircuit_of_holdsPairs (paired : layer.holdsPairs = true) :
    layer.toCircuit =
      match Builder.empty.fuseAll layer.pieces with
      | .error fault => .error (.invalidInstruction fault)
      | .ok builder => .ok builder.circuit := by
  cases layer with
  | interact _ | interactSwap _ | swap _ | iswap _ | sqrtProduct _ => rfl
  | reset _ | measure _ | feedback _ | rotation _ | product _ | parity _ | qubitCoords _
  | shiftCoords _ | empty | loop _ _ => cases paired

/-- Layers that hold the same pairs are written as the same circuit. -/
theorem Rearranges.toCircuit_eq {first second : Layer} (rearranges : first.Rearranges second) :
    first.toCircuit = second.toCircuit := by
  have paired : first.holdsPairs = true ∧ second.holdsPairs = true := by
    cases rearranges <;> exact ⟨rfl, rfl⟩
  rw [toCircuit_of_holdsPairs paired.1, toCircuit_of_holdsPairs paired.2, rearranges.pieces_eq]

/-- The instructions of a layer of pairs act on pairs. -/
theorem actsOnPairs_of_mem_pieces (paired : layer.holdsPairs = true) (once : layer.touched.Nodup)
    {instruction : Instruction} (member : instruction ∈ layer.pieces) :
    instruction.ActsOnPairs ∧ instruction.portions = [instruction] := by
  have valid := writable_of_once paired once instruction member
  obtain ⟨application, written, rfl⟩ := List.mem_map.mp ((pieces_perm paired).mem_iff.mp member)
  have shape := shape_of_mem_applications written
  exact ⟨⟨valid, rfl, application.gate, rfl, shape⟩, Application.portions_instruction shape⟩

/-- A layer of pairs that names no qubit twice is written, and its instructions are the portions
    of what is written. -/
theorem exists_toCircuit (paired : layer.holdsPairs = true) (once : layer.touched.Nodup) :
    ∃ circuit, layer.toCircuit = .ok circuit ∧ circuit.portions = layer.pieces := by
  refine ⟨(Instruction.joined layer.pieces).map .single, ?_, ?_⟩
  · have written := Builder.closed_empty.fuseAll_eq_ok_iff.mpr ⟨writable_of_once paired once, rfl⟩
    rw [toCircuit_of_holdsPairs paired, written]
    simp [Builder.circuit, Builder.written, Builder.empty]
  · have each : ∀ instruction ∈ layer.pieces,
        instruction.ActsOnPairs ∧ instruction.portions = [instruction] :=
      fun instruction member => actsOnPairs_of_mem_pieces paired once member
    calc Circuit.portions ((Instruction.joined layer.pieces).map .single)
        = (Instruction.joined layer.pieces).flatMap Instruction.portions :=
          Circuit.portions_singles _
      _ = layer.pieces.flatMap Instruction.portions :=
          Instruction.ActsOnPairs.flatMap_portions_joined fun instruction member =>
            (each instruction member).1
      _ = layer.pieces.flatMap fun instruction => [instruction] :=
          List.flatMap_congr fun instruction member => (each instruction member).2
      _ = layer.pieces := List.flatMap_singleton' _

/-- What is written of a layer of pairs does not depend on the order of the pairs or of their
    operands. If the layer names no qubit twice, it is written, and what is asked of its pairs is
    found once each, and nothing besides. -/
theorem toCircuit_of_rearranges {first second : Layer} (rearranges : first.Rearranges second)
    (once : first.touched.Nodup) :
    ∃ circuit, first.toCircuit = .ok circuit ∧ second.toCircuit = .ok circuit ∧
      circuit.portions.length = first.demands.length ∧
      ∀ demand ∈ first.demands, circuit.occurrences demand = 1 := by
  have paired : first.holdsPairs = true := by cases rearranges <;> rfl
  obtain ⟨circuit, written, portions⟩ := exists_toCircuit paired once
  refine ⟨circuit, written, rearranges.toCircuit_eq ▸ written, ?_, fun demand asked => ?_⟩
  · rw [portions, (pieces_perm paired).length_eq, List.length_map, first.meets_demands.length_eq]
  · rw [Circuit.occurrences, portions, (pieces_perm paired).countP_eq, List.countP_map,
      ← count_of_meets first.meets_demands (pairwise_disjoint_demands once) asked]
    refine List.countP_congr fun application _ => ?_
    simp [Application.isWrittenAs_instruction]

/-- Three couplings that are followed by exchanges, two of them with a gate of their own. -/
theorem toCircuit_of_rearranges_sample :
    ∃ circuit,
      (Layer.interactSwap [⟨⟨4, .X⟩, ⟨2, .Y⟩⟩, ⟨⟨1, .X⟩, ⟨0, .Z⟩⟩, ⟨⟨5, .Z⟩, ⟨3, .Z⟩⟩]).toCircuit =
        .ok circuit ∧
      (Layer.interactSwap [⟨⟨3, .Z⟩, ⟨5, .Z⟩⟩, ⟨⟨2, .Y⟩, ⟨4, .X⟩⟩, ⟨⟨1, .X⟩, ⟨0, .Z⟩⟩]).toCircuit =
        .ok circuit ∧
      circuit.portions.length = 4 ∧
      circuit.occurrences [⟨.controlled .X .Y, 4, 2⟩, ⟨.controlled .Y .X, 2, 4⟩] = 1 ∧
      circuit.occurrences [⟨.swap, 4, 2⟩, ⟨.swap, 2, 4⟩] = 1 ∧
      circuit.occurrences [⟨.cxSwap, 0, 1⟩] = 1 ∧
      circuit.occurrences [⟨.czSwap, 5, 3⟩, ⟨.czSwap, 3, 5⟩] = 1 := by
  have rearranged : Rearranged Coupling.reversed
      [⟨⟨4, .X⟩, ⟨2, .Y⟩⟩, ⟨⟨1, .X⟩, ⟨0, .Z⟩⟩, ⟨⟨5, .Z⟩, ⟨3, .Z⟩⟩]
      [⟨⟨3, .Z⟩, ⟨5, .Z⟩⟩, ⟨⟨2, .Y⟩, ⟨4, .X⟩⟩, ⟨⟨1, .X⟩, ⟨0, .Z⟩⟩] :=
    ⟨[⟨⟨5, .Z⟩, ⟨3, .Z⟩⟩, ⟨⟨4, .X⟩, ⟨2, .Y⟩⟩, ⟨⟨1, .X⟩, ⟨0, .Z⟩⟩], by decide,
      .cons (.inr rfl) (.cons (.inr rfl) (.cons (.inl rfl) .nil))⟩
  obtain ⟨circuit, first, second, length, once⟩ :=
    toCircuit_of_rearranges (.interactSwap rearranged) (by decide)
  refine ⟨circuit, first, second, length, once _ (by decide), once _ (by decide),
    once _ (by decide), once _ (by decide)⟩

end Layer

end StabilizerLayers
