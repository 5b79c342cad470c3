import StabilizerLayers.Proofs.Circuit.Slots
import StabilizerLayers.Proofs.Schedule.Entries

/-!
# Reading entries back

The instructions of a layer list its entries in runs, each run as one instruction of one
gate. Joining instructions makes longer runs of the same entries.

Grouping reads such an instruction as layers that hold its run in parts. Where entries
of one kind can share a slot, the parts merge, within an instruction and between
instructions, and the layer that grows from them holds all entries in order.
-/

namespace StabilizerLayers

section

variable {α : Type}

/-! ### Runs of entries -/

/-- Whether instructions list entries in order, each instruction a run of entries of its
    gate. -/
inductive Lists (gate : α → Gate) (targets : α → List Target) :
    List α → List Instruction → Prop where
  | nil : Lists gate targets [] []
  | cons {label : Gate} {run rest : List α} {instructions : List Instruction} (some : run ≠ [])
      (same : ∀ entry ∈ run, gate entry = label) (later : Lists gate targets rest instructions) :
      Lists gate targets (run ++ rest) (.on label (run.flatMap targets) :: instructions)

namespace Lists

variable {gate : α → Gate} {targets : α → List Target} {entries rest : List α}
  {instructions : List Instruction}

/-- One instruction for each entry. -/
theorem single (entries : List α) :
    Lists gate targets entries (entries.map fun entry => .on (gate entry) (targets entry)) := by
  induction entries with
  | nil => exact .nil
  | cons entry rest inductionHypothesis =>
    have here : ∀ other ∈ [entry], gate other = gate entry := by simp
    simpa using Lists.cons (by simp) here inductionHypothesis

/-- One instruction for each value that occurs in a map. -/
theorem byValue [DecidableEq α] (gate : α → Gate) {map : QubitMap α} {labels : List α}
    {write : α → Option Instruction}
    (written : ∀ label ∈ labels, write label =
      match map.keysWhere fun held => held == label with
      | [] => none
      | ids => some (.onQubits (gate label) ids)) :
    Lists (fun entry => gate entry.2) (fun entry => [.plain entry.1])
      (labels.flatMap fun label =>
        (map.keysWhere fun held => held == label).map fun id => (id, label))
      (labels.filterMap write) := by
  induction labels with
  | nil => exact .nil
  | cons label rest inductionHypothesis =>
    have later := inductionHypothesis fun other member => written other (.tail _ member)
    have here := written label (.head _)
    rw [List.flatMap_cons, List.filterMap_cons, here]
    cases keys : map.keysWhere fun held => held == label with
    | nil => exact later
    | cons id ids =>
      have targets : (((id :: ids).map fun id => (id, label)).flatMap fun entry =>
          [Target.plain entry.1]) = (id :: ids).map .plain := by
        rw [List.flatMap_map, List.map_eq_flatMap]
      have some : ((id :: ids).map fun id => (id, label)) ≠ [] := by simp
      have same : ∀ entry ∈ (id :: ids).map fun id => (id, label), gate entry.2 = gate label := by
        simp
      have listed := Lists.cons some same later
      rwa [targets] at listed

/-- Instructions that join a run make it longer. -/
theorem joinedFrom (listed : Lists gate targets rest instructions) {label : Gate} {run : List α}
    (some : run ≠ []) (same : ∀ entry ∈ run, gate entry = label) :
    Lists gate targets (run ++ rest)
      (Instruction.joinedFrom (.on label (run.flatMap targets)) instructions) := by
  induction listed generalizing label run with
  | nil => exact .cons some same .nil
  | @cons nextLabel nextRun rest instructions nextSome nextSame later inductionHypothesis =>
    rw [Instruction.joinedFrom]
    split
    · rename_i fuses
      obtain ⟨joint, here, there, -⟩ := Instruction.gate?_of_fuses fuses
      obtain rfl : label = nextLabel :=
        (Option.some.inj here).trans (Option.some.inj there).symm
      have joined : (Instruction.on label (run.flatMap targets)).withTargets
          (Instruction.on label (nextRun.flatMap targets)).targets =
          .on label ((run ++ nextRun).flatMap targets) := by
        simp [Instruction.withTargets, Instruction.on]
      rw [joined, ← List.append_assoc]
      refine inductionHypothesis (by simp [some]) fun entry member => ?_
      rcases List.mem_append.mp member with before | after
      · exact same entry before
      · exact nextSame entry after
    · exact .cons some same (inductionHypothesis nextSome nextSame)

/-- Joined instructions list the same entries. -/
theorem joined (listed : Lists gate targets entries instructions) :
    Lists gate targets entries (Instruction.joined instructions) := by
  cases listed with
  | nil => exact .nil
  | cons some same later => exact later.joinedFrom some same

end Lists

/-! ### Layers of entries -/

/-- Whether each instruction is read as layers that hold the entries in parts. -/
inductive Reads (build : List α → Layer) : List α → List Instruction → Prop where
  | nil : Reads build [] []
  | cons {instruction : Instruction} {parts : List (List α)} {rest : List α}
      {instructions : List Instruction} (works : instruction.applies .tick = false)
      (read : instruction.layers = .ok (parts.map build)) (later : Reads build rest instructions) :
      Reads build (parts.flatten ++ rest) (instruction :: instructions)

/-- One instruction for each entry. -/
theorem Reads.single {build : List α → Layer} {make : α → Instruction} {entries : List α}
    (each : ∀ entry ∈ entries, (make entry).applies .tick = false ∧
      (make entry).layers = .ok [build [entry]]) : Reads build entries (entries.map make) := by
  induction entries with
  | nil => exact .nil
  | cons entry rest inductionHypothesis =>
    obtain ⟨works, read⟩ := each entry (.head _)
    have later := inductionHypothesis fun other member => each other (.tail _ member)
    have parted : (make entry).layers = .ok ([[entry]].map build) := read
    exact .cons works parted later

/-- Whether a run of entries with the gate of one of them is read in parts. -/
def Readable (gate : α → Gate) (targets : α → List Target) (build : List α → Layer)
    (entries : List α) : Prop :=
  ∀ run : List α, ∀ entry ∈ entries, (∀ other ∈ run, other ∈ entries ∧ gate other = gate entry) →
    ∃ parts : List (List α), parts.flatten = run ∧
      (Instruction.on (gate entry) (run.flatMap targets)).layers = .ok (parts.map build)

/-- Listed entries are read in parts if every run of theirs is. -/
theorem Lists.reads {gate : α → Gate} {targets : α → List Target} {build : List α → Layer}
    {entries : List α} {instructions : List Instruction}
    (listed : Lists gate targets entries instructions)
    (readable : Readable gate targets build entries) : Reads build entries instructions := by
  induction listed with
  | nil => exact .nil
  | @cons label run rest instructions some same later inductionHypothesis =>
    obtain ⟨entry, member⟩ := List.exists_mem_of_ne_nil run some
    obtain rfl := same entry member
    obtain ⟨parts, whole, read⟩ := readable run entry (List.mem_append_left _ member)
      fun other mine => ⟨List.mem_append_left _ mine, same other mine⟩
    have timed : (Instruction.on (gate entry) (run.flatMap targets)).applies .tick = false := by
      refine beq_eq_false_iff_ne.mpr fun ticks => ?_
      rw [Option.some.inj ticks] at read
      cases read
    rw [← whole]
    refine .cons timed (whole ▸ read) (inductionHypothesis fun run entry member mine => ?_)
    refine readable run entry (List.mem_append_right _ member) fun other listed => ?_
    exact ⟨List.mem_append_right _ (mine other listed).1, (mine other listed).2⟩

/-- Whether layers of entries merge wherever the entries may stand together. -/
structure Merges (build : List α → Layer) (together : List α → Prop) : Prop where
  start : ∀ {first second : List α}, together (first ++ second) → together first
  merge : ∀ {first second : List α}, together (first ++ second) →
    (build first).absorb? (build second) = some (build (first ++ second))

namespace Grouping

variable {build : List α → Layer} {together : List α → Prop} {closed earlier : List Layer}

/-- A layer that does not join the latest one of the slot stands after it. -/
theorem push_of_fresh {current : List Layer} {layer : Layer}
    (fresh : ∀ latest ∈ current.head?, latest.absorb? layer = none) :
    (⟨closed, current⟩ : Grouping).push layer = ⟨closed, layer :: current⟩ := by
  cases current with
  | nil => rfl
  | cons latest earlier => simp [push, fresh latest (by simp)]

/-- Parts of entries that may stand together grow into one layer. -/
theorem pushAll_parts (merges : Merges build together) {prior : List α} {parts : List (List α)}
    (allowed : together (prior ++ parts.flatten)) :
    (⟨closed, build prior :: earlier⟩ : Grouping).pushAll (parts.map build) =
      ⟨closed, build (prior ++ parts.flatten) :: earlier⟩ := by
  induction parts generalizing prior with
  | nil => simp [pushAll]
  | cons part rest inductionHypothesis =>
    rw [List.flatten_cons, ← List.append_assoc] at allowed ⊢
    have merged := merges.merge (merges.start allowed)
    rw [List.map_cons, pushAll, push]
    simp only [merged]
    exact inductionHypothesis allowed

/-- Whether a grouping takes operations without fault and becomes the next one. -/
def Takes (grouping : Grouping) (operations : List Operation) (next : Grouping) : Prop :=
  ∀ rest, grouping.operations (operations ++ rest) = next.operations rest

/-- Operations one after the other. -/
theorem Takes.append {grouping middle next : Grouping} {first second : List Operation}
    (here : grouping.Takes first middle) (there : middle.Takes second next) :
    grouping.Takes (first ++ second) next := by
  intro rest
  rw [List.append_assoc, here, there]

/-- Operations that are taken are grouped. -/
theorem Takes.operations_eq_ok {grouping next : Grouping} {circuit : List Operation}
    (taken : grouping.Takes circuit next) : grouping.operations circuit = .ok next := by
  have whole := taken []
  rwa [List.append_nil] at whole

/-- No operation changes nothing. -/
theorem takes_nil (grouping : Grouping) : grouping.Takes [] grouping := fun _ => rfl

/-- An instruction that is no tick adds its layers. -/
theorem takes_single (grouping : Grouping) {instruction : Instruction} {layers : List Layer}
    (works : instruction.applies .tick = false) (read : instruction.layers = .ok layers) :
    grouping.Takes [.single instruction] (grouping.pushAll layers) := by
  intro rest
  simp [operations, operation, Grouping.instruction, works, read, Except.map]

/-- Entries that are read grow a layer of their kind. -/
theorem takes_onto (merges : Merges build together) {prior entries : List α}
    {instructions : List Instruction} (reads : Reads build entries instructions)
    (allowed : together (prior ++ entries)) :
    (⟨closed, build prior :: earlier⟩ : Grouping).Takes (instructions.map .single)
      ⟨closed, build (prior ++ entries) :: earlier⟩ := by
  induction reads generalizing prior with
  | nil =>
    rw [List.append_nil]
    exact takes_nil _
  | cons works read later inductionHypothesis =>
    rw [← List.append_assoc] at allowed ⊢
    have here := takes_single ⟨closed, build prior :: earlier⟩ works read
    rw [pushAll_parts merges (merges.start allowed)] at here
    exact here.append (inductionHypothesis allowed)

/-- Entries that are read make a layer of their own if no layer joins the latest one. -/
theorem takes_reads (merges : Merges build together) {entries : List α}
    {instructions : List Instruction} (reads : Reads build entries instructions)
    (some : entries ≠ []) (allowed : together entries) {current : List Layer}
    (fresh : ∀ latest ∈ current.head?, ∀ entries, latest.absorb? (build entries) = none) :
    (⟨closed, current⟩ : Grouping).Takes (instructions.map .single)
      ⟨closed, build entries :: current⟩ := by
  induction reads with
  | nil => exact absurd rfl some
  | @cons instruction parts others instructions works read later inductionHypothesis =>
    have here := takes_single ⟨closed, current⟩ works read
    cases parts with
    | nil => exact here.append (inductionHypothesis some allowed)
    | cons part parts =>
      have pushed : (⟨closed, current⟩ : Grouping).push (build part) =
          ⟨closed, build part :: current⟩ :=
        push_of_fresh fun latest member => fresh latest member part
      rw [List.flatten_cons] at allowed ⊢
      rw [List.map_cons, pushAll, pushed, pushAll_parts merges (merges.start allowed)] at here
      exact here.append (takes_onto merges later allowed)

end Grouping

end

/-! ### Targets of runs -/

/-- The pairs that entries are written as. -/
theorem consecutivePairs_flatMap {α β : Type} (first second : α → β) (entries : List α) :
    consecutivePairs (entries.flatMap fun entry => [first entry, second entry]) =
      entries.map fun entry => (first entry, second entry) := by
  induction entries with
  | nil => rfl
  | cons entry rest inductionHypothesis =>
    simpa [consecutivePairs] using inductionHypothesis

/-- Runs of units, each unit told as an entry, are the entries in parts. -/
theorem exists_parts_of_runs {α β : Type} (qubits : β → List Qubit) (units : List β)
    (entry : β → α) (build : List α → Layer) :
    ∃ parts : List (List α), parts.flatten = units.map entry ∧
      ((runs qubits units).map fun run => build (run.map entry)) = parts.map build := by
  refine ⟨(runs qubits units).map (List.map entry), ?_, by rw [List.map_map]; rfl⟩
  rw [← List.map_flatten, flatten_runs]

namespace Instruction

/-- Plain qubits are read as they are. -/
theorem plainQubits_on (gate : Gate) (ids : List Qubit) :
    (on gate (ids.map Target.plain)).plainQubits = .ok ids :=
  plainQubits_eq_ok_iff.mpr rfl

/-- Pairs of plain qubits are read as they are. -/
theorem plainPairs_on (gate : Gate) (pairs : List (Qubit × Qubit)) :
    (on gate (pairs.flatMap fun pair => (pairQubits pair).map Target.plain)).plainPairs =
      .ok pairs := by
  rw [plainPairs, ← List.map_flatMap, plainQubits_on]
  exact congrArg Except.ok ((consecutivePairs_flatMap Prod.fst Prod.snd pairs).trans
    (List.map_id _))

/-- Qubits that are measured or reset are read in runs. -/
theorem collapseLayers_on (gate : Gate) {targets : List (Qubit × Bool)}
    {measured reset : Option Basis}
    (plain : measured = none → ∀ target ∈ targets, target.2 = false) :
    (on gate (targets.map fun target => .qubit target.1 target.2)).collapseLayers measured reset =
      .ok ((runs (fun target => [target.1]) targets).flatMap fun run =>
        (measured.map fun basis =>
          Layer.measure (run.map fun (id, inverted) => ⟨id, basis, inverted⟩)).toList ++
        (reset.map fun basis =>
          Layer.reset (.ofList (run.map fun (id, _) => (id, basis)))).toList) :=
  collapseLayers_eq_ok_iff.mpr ⟨rfl, targets, rfl, plain, rfl⟩

/-- Measurements along an axis are read in runs. -/
theorem layers_measure (axis : Basis) (targets : List (Qubit × Bool)) :
    (on (.measure axis) (targets.map fun target => .qubit target.1 target.2)).layers =
      .ok ((runs (fun target => [target.1]) targets).map fun run =>
        .measure (run.map fun (id, inverted) => ⟨id, axis, inverted⟩)) := by
  have measured : some axis = none → ∀ target ∈ targets, target.2 = false := by simp
  have read : (on (.measure axis) (targets.map fun target => .qubit target.1 target.2)).layers =
      _ := collapseLayers_on (.measure axis) measured
  exact read.trans (congrArg _ List.map_eq_flatMap.symm)

/-- Resets along an axis are read in runs. -/
theorem layers_reset (axis : Basis) (ids : List Qubit) :
    (on (.reset axis) (ids.map Target.plain)).layers =
      .ok ((runs (fun target => [target.1]) (ids.map fun id => (id, false))).map fun run =>
        .reset (.ofList (run.map fun (id, _) => (id, axis)))) := by
  have plain : ∀ target ∈ ids.map fun id => (id, false), target.2 = false := by simp
  have read : (on (.reset axis) ((ids.map fun id => (id, false)).map fun target =>
      .qubit target.1 target.2)).layers = _ :=
    collapseLayers_on (.reset axis) fun _ : none = none => plain
  rw [List.map_map] at read
  exact read.trans (congrArg _ List.map_eq_flatMap.symm)

/-- Parts of an interaction that are all couplings. -/
theorem partLayers_couplings (held couplings : List Coupling) :
    partLayers held (couplings.map .coupling) = couplingLayers (couplings.reverse ++ held) := by
  induction couplings generalizing held with
  | nil => rfl
  | cons coupling rest inductionHypothesis => simp [partLayers, inductionHypothesis]

/-- Parts of an interaction that are all feedback. -/
theorem partLayers_feedback (entries : List Feedback) :
    partLayers [] (entries.map .feedback) = entries.map fun entry => .feedback [entry] := by
  induction entries with
  | nil => rfl
  | cons entry rest inductionHypothesis =>
    simpa [partLayers, couplingLayers] using inductionHypothesis

end Instruction

/-! ### Kinds of entries -/

/-- Measurements along one axis are read back. -/
theorem readable_measure (entries : List Measurement) :
    Readable (fun entry => .measure entry.basis) (fun entry => [.qubit entry.id entry.inverted])
      .measure entries := by
  intro run entry _ same
  obtain ⟨parts, whole, read⟩ := exists_parts_of_runs (fun target : Qubit × Bool => [target.1])
    (run.map fun target => (target.id, target.inverted))
    (fun target => (⟨target.1, entry.basis, target.2⟩ : Measurement)) Layer.measure
  refine ⟨parts, ?_, ?_⟩
  · rw [whole, List.map_map]
    refine (List.map_congr_left fun target member => ?_).trans (List.map_id run)
    have basis : target.basis = entry.basis := by simpa using (same target member).2
    simp [← basis]
  · rw [← read, ← List.map_eq_flatMap]
    have layers := Instruction.layers_measure entry.basis
      (run.map fun target => (target.id, target.inverted))
    rwa [List.map_map] at layers

/-- Resets along one axis are read back. -/
theorem readable_reset (entries : List (Qubit × Basis)) :
    Readable (fun entry => .reset entry.2) (fun entry => [.plain entry.1])
      (fun entries => .reset (.ofList entries)) entries := by
  intro run entry _ same
  obtain ⟨parts, whole, read⟩ := exists_parts_of_runs (fun target : Qubit × Bool => [target.1])
    ((run.map Prod.fst).map fun id => (id, false)) (fun target => (target.1, entry.2))
    fun entries => .reset (.ofList entries)
  refine ⟨parts, ?_, ?_⟩
  · rw [whole, List.map_map, List.map_map]
    refine (List.map_congr_left fun target member => ?_).trans (List.map_id run)
    have basis : target.2 = entry.2 := by simpa using (same target member).2
    simp [← basis]
  · rw [← read, ← List.map_eq_flatMap]
    have layers := Instruction.layers_reset entry.2 (run.map Prod.fst)
    rwa [List.map_map] at layers

/-- The gate of a rotation that is not idle tells it. -/
theorem Rotation.rotation?_gate {turn : Rotation} (turning : turn ≠ .identity) :
    (turn.gate?.getD .identity).rotation? = some turn := by
  cases turn with
  | identity => exact absurd rfl turning
  | exchange _ | cycleXYZ | cycleZYX => rfl

/-- Rotations of one kind that are not idle are read back. -/
theorem readable_rotation {entries : List (Qubit × Rotation)}
    (turning : ∀ entry ∈ entries, entry.2 ≠ .identity) :
    Readable (fun entry => entry.2.gate?.getD .identity) (fun entry => [.plain entry.1])
      (fun entries => .rotation (.ofList entries)) entries := by
  intro run entry member same
  have each : ∀ other ∈ run, (other.1, entry.2) = other := by
    intro other listed
    obtain ⟨held, gates⟩ := same other listed
    have told := congrArg Gate.rotation? gates
    rw [Rotation.rotation?_gate (turning other held),
      Rotation.rotation?_gate (turning entry member)] at told
    exact Prod.ext rfl (Option.some.inj told).symm
  have named : (run.flatMap fun other => [Target.plain other.1]) =
      (run.map Prod.fst).map Target.plain := by
    rw [List.map_map, List.map_eq_flatMap]
    rfl
  have layers : (Instruction.on (entry.2.gate?.getD .identity)
      ((run.map Prod.fst).map Target.plain)).layers =
      .ok [.rotation (.ofList ((run.map Prod.fst).map fun id => (id, entry.2)))] := by
    have turns := turning entry member
    have read := Instruction.plainQubits_on (entry.2.gate?.getD .identity) (run.map Prod.fst)
    cases turn : entry.2 with
    | identity => exact absurd turn turns
    | exchange _ | cycleXYZ | cycleZYX =>
      rw [turn] at read
      exact congrArg (Except.map _) read
  refine ⟨[run], by simp, ?_⟩
  rw [named, layers, List.map_map]
  exact congrArg (fun entries => Except.ok [Layer.rotation (.ofList entries)])
    ((List.map_congr_left each).trans (List.map_id run))

/-- Couplings along the same two axes are read back. -/
theorem readable_interact (entries : List Coupling) :
    Readable Coupling.gate (fun entry => entry.qubits.map Target.plain) .interact entries := by
  intro run entry _ same
  have read : (run.map fun coupling =>
      (Target.plain coupling.first.id, Target.plain coupling.second.id)).mapM
      ((Instruction.on entry.gate (run.flatMap fun coupling =>
        coupling.qubits.map Target.plain)).pairPart entry.first.basis entry.second.basis) =
      .ok (run.map .coupling) := by
    rw [List.mapM_map]
    refine mapM_eq_ok fun coupling member => ?_
    obtain ⟨first, second⟩ := Gate.controlled.inj (same coupling member).2
    simp [Instruction.pairPart, Target.plain, ← first, ← second]
  have pairs : consecutivePairs (run.flatMap fun coupling => coupling.qubits.map Target.plain) =
      run.map fun coupling => (Target.plain coupling.first.id, .plain coupling.second.id) :=
    consecutivePairs_flatMap _ _ run
  refine ⟨runs Coupling.qubits run, flatten_runs run, ?_⟩
  have layers := congrArg (Except.map (Instruction.partLayers [])) read
  rw [← pairs] at layers
  refine layers.trans (congrArg Except.ok ?_)
  rw [Instruction.partLayers_couplings, Instruction.couplingLayers, List.append_nil,
    List.reverse_reverse]

/-- Pairs of plain qubits that are read with what their gate says are read back. -/
theorem readable_pairs {α : Type} {gate : α → Gate} {build : List α → Layer} {entries : List α}
    (ends : α → Qubit × Qubit) (qubits : α → List Qubit) (make : α → Qubit × Qubit → α)
    (layers : ∀ entry ∈ entries, ∀ instruction : Instruction,
      instruction.gate? = some (gate entry) →
      instruction.layers = instruction.plainPairs.map fun pairs =>
        (runs qubits (pairs.map (make entry))).map build)
    (told : ∀ entry ∈ entries, ∀ other ∈ entries, gate other = gate entry →
      make entry (ends other) = other) :
    Readable gate (fun entry => (pairQubits (ends entry)).map Target.plain) build entries := by
  intro run entry member same
  have named : (run.flatMap fun other => (pairQubits (ends other)).map Target.plain) =
      (run.map ends).flatMap fun pair => (pairQubits pair).map Target.plain := by
    rw [List.flatMap_map]
  have units : (run.map ends).map (make entry) = run := by
    rw [List.map_map]
    refine (List.map_congr_left fun other listed => ?_).trans (List.map_id run)
    obtain ⟨held, gates⟩ := same other listed
    exact told entry member other held gates
  refine ⟨runs qubits run, flatten_runs run, ?_⟩
  rw [layers entry member _ rfl, named, Instruction.plainPairs_on]
  exact congrArg (fun units => Except.ok ((runs qubits units).map build)) units

/-- A gate that couples and exchanges does so along Z and along Z or X. -/
theorem Coupling.bases_of_swapGate? {coupling : Coupling}
    (own : coupling.swapGate?.isSome = true) :
    (coupling.first.basis = .Z ∧ coupling.second.basis = .Z ∧
      coupling.swapGate? = some .czSwap) ∨
    (coupling.first.basis = .Z ∧ coupling.second.basis = .X ∧
      coupling.swapGate? = some .cxSwap) := by
  obtain ⟨⟨id, first⟩, ⟨other, second⟩⟩ := coupling
  cases first <;> cases second <;> simp_all [swapGate?]

/-- Couplings that a gate exchanges too are read back. -/
theorem readable_interactSwap {entries : List Coupling}
    (own : ∀ entry ∈ entries, entry.swapGate?.isSome = true) :
    Readable (fun entry => entry.swapGate?.getD .swap) (fun entry => entry.qubits.map Target.plain)
      .interactSwap entries := by
  refine readable_pairs (fun entry => (entry.first.id, entry.second.id)) Coupling.qubits
    (fun entry pair => ⟨⟨pair.1, entry.first.basis⟩, ⟨pair.2, entry.second.basis⟩⟩) ?_ ?_
  · intro entry member instruction applied
    rcases Coupling.bases_of_swapGate? (own entry member) with
      ⟨first, second, named⟩ | ⟨first, second, named⟩
    · rw [Instruction.layers, applied, named, first, second]
      rfl
    · rw [Instruction.layers, applied, named, first, second]
      rfl
  · intro entry member other held gates
    rcases Coupling.bases_of_swapGate? (own entry member) with
      ⟨first, second, named⟩ | ⟨first, second, named⟩ <;>
    rcases Coupling.bases_of_swapGate? (own other held) with
      ⟨otherFirst, otherSecond, otherNamed⟩ | ⟨otherFirst, otherSecond, otherNamed⟩ <;>
    simp only [named, otherNamed, Option.getD_some, reduceCtorEq] at gates
    · rw [first.trans otherFirst.symm, second.trans otherSecond.symm]
    · rw [first.trans otherFirst.symm, second.trans otherSecond.symm]

/-- Exchanges with the smaller qubit first are read back. -/
theorem readable_exchange {gate : Gate} {build : List (Qubit × Qubit) → Layer}
    (layers : ∀ instruction : Instruction, instruction.gate? = some gate →
      instruction.layers = instruction.exchangeLayers build) {entries : List (Qubit × Qubit)}
    (ordered : ∀ entry ∈ entries, entry.1 < entry.2) :
    Readable (fun _ => gate) (fun entry => (pairQubits entry).map Target.plain) build entries := by
  intro run _ _ same
  obtain ⟨parts, whole, read⟩ := exists_parts_of_runs pairQubits run
    (fun pair => smallerFirst pair.1 pair.2) build
  refine ⟨parts, ?_, ?_⟩
  · refine whole.trans ((List.map_congr_left fun pair member => ?_).trans (List.map_id run))
    have less := ordered pair (same pair member).1
    exact if_neg (UInt32.lt_asymm less)
  · rw [layers _ rfl, Instruction.exchangeLayers, Instruction.plainPairs_on, ← read]
    rfl

/-- Square roots of one product are read back. -/
theorem readable_sqrtProduct (entries : List SqrtPair) :
    Readable (fun entry => .sqrtProduct entry.basis entry.dagger)
      (fun entry => entry.qubits.map Target.plain) .sqrtProduct entries := by
  refine readable_pairs (fun entry => (entry.first, entry.second)) SqrtPair.qubits
    (fun entry pair => ⟨pair.1, pair.2, entry.basis, entry.dagger⟩) ?_ ?_
  · intro entry _ instruction applied
    rw [Instruction.layers, applied]
    rfl
  · intro entry _ other _ gates
    obtain ⟨basis, dagger⟩ := Gate.sqrtProduct.inj gates
    rw [← basis, ← dagger]

/-- Feedback with one operator is read back. -/
theorem readable_feedback {entries : List Feedback}
    (classical : ∀ entry ∈ entries, entry.control.isClassical = true) :
    Readable (fun entry => .controlled .Z entry.basis)
      (fun entry => [entry.control, .plain entry.id]) .feedback entries := by
  intro run entry _ same
  have read : (run.map fun feedback => (feedback.control, Target.plain feedback.id)).mapM
      ((Instruction.on (.controlled .Z entry.basis) (run.flatMap fun feedback =>
        [feedback.control, .plain feedback.id])).pairPart .Z entry.basis) =
      .ok (run.map .feedback) := by
    rw [List.mapM_map]
    refine mapM_eq_ok fun feedback member => ?_
    obtain ⟨-, basis⟩ := Gate.controlled.inj (same feedback member).2
    have bit := classical feedback (same feedback member).1
    obtain ⟨control, id, axis⟩ := feedback
    cases control with
    | record _ | sweep _ =>
      subst basis
      rfl
    | qubit _ _ | pauli _ _ _ | combiner => cases bit
  have pairs : consecutivePairs (run.flatMap fun feedback =>
      [feedback.control, Target.plain feedback.id]) =
      run.map fun feedback => (feedback.control, .plain feedback.id) :=
    consecutivePairs_flatMap _ _ run
  refine ⟨run.map fun feedback => [feedback], ?_, ?_⟩
  · rw [← List.flatMap_def, List.flatMap_singleton']
  have layers := congrArg (Except.map (Instruction.partLayers [])) read
  rw [← pairs] at layers
  refine layers.trans (congrArg Except.ok ?_)
  rw [Instruction.partLayers_feedback, List.map_map]
  rfl

/-- Products are read back. -/
theorem readable_product {entries : List (List Target)}
    (whole : ∀ factors ∈ entries, isProduct factors = true) :
    Readable (fun _ => .measureProduct) id (fun entries => .product entries.flatten) entries := by
  intro run _ _ same
  have mine : ∀ factors ∈ run, isProduct factors = true := fun factors member =>
    whole factors (same factors member).1
  have allowed : run.flatten.find? (fun target => !(target.isPauli || target == .combiner)) =
      none := by
    refine List.find?_eq_none.mpr fun target member refused => ?_
    obtain ⟨factors, listed, inside⟩ := List.mem_flatten.mp member
    simp [isPauli_or_combiner (mine factors listed) inside] at refused
  refine ⟨run.map fun factors => [factors], ?_, ?_⟩
  · rw [← List.flatMap_def, List.flatMap_singleton']
  · have layers : (Instruction.on .measureProduct run.flatten).layers =
        .ok ((Instruction.productsFrom [] false run.flatten).map .product) := by
      rw [Instruction.layers, Instruction.gate?_on]
      simp only [Instruction.gateLayers, Instruction.productLayers, Instruction.on,
        Instruction.hasNonzeroArgument, List.any_nil, Bool.false_eq_true, if_false, allowed]
    rw [List.flatMap_id, layers, Instruction.productsFrom_flatten mine, List.map_map]
    simp

/-! ### Merging -/

/-- Layers of different kinds do not merge. -/
theorem Layer.absorb?_eq_none {first second : Layer} (differ : first.kind ≠ second.kind) :
    first.absorb? second = none := by
  fun_cases Layer.absorb? first second with
  | case1 | case2 | case3 | case4 | case5 | case6 | case7 | case8 | case9 | case10 | case11
  | case12 | case13 | case14 => exact absurd rfl differ
  | case15 => rfl

/-- Entries that share no qubits merge in layers that ask for no more. -/
theorem merges_disjoint {α : Type} {build : List α → Layer} {qubits : α → List Qubit}
    (touched : ∀ entries, (build entries).touched = entries.flatMap qubits)
    (absorb : ∀ first second, (build first).absorb? (build second) =
      Layer.mergeDisjoint (fun entries => (build entries).touched) build first second) :
    Merges build fun entries => Spread (entries.map qubits) where
  start together := by
    rw [List.map_append] at together
    exact (List.pairwise_append.mp together).1
  merge {first second} together := by
    rw [List.map_append] at together
    obtain ⟨-, -, apart⟩ := List.pairwise_append.mp together
    have separate : disjoint (build first).touched (build second).touched = true := by
      refine disjoint_eq_true_iff.mpr fun id before after => ?_
      rw [touched] at before after
      obtain ⟨earlier, here, mine⟩ := List.mem_flatMap.mp before
      obtain ⟨later, there, theirs⟩ := List.mem_flatMap.mp after
      exact apart _ (List.mem_map_of_mem here) _ (List.mem_map_of_mem there) mine theirs
    rw [absorb, Layer.mergeDisjoint, if_pos separate]

/-- Resets of distinct qubits merge. -/
theorem merges_reset :
    Merges (fun entries => .reset (.ofList entries)) fun entries =>
      (entries.map Prod.fst).Nodup where
  start together := by
    rw [List.map_append] at together
    exact together.of_append_left
  merge {first second} together := by
    have separate : (QubitMap.ofList second).keys.any (QubitMap.ofList first).contains = false := by
      refine List.any_eq_false.mpr fun id after before => ?_
      have apart := List.disjoint_of_nodup_append (QubitMap.nodup_keys_append together)
      exact apart (QubitMap.contains_eq_true_iff.mp before) after
    rw [Layer.absorb?, separate, ← QubitMap.insertAll_ofList together]
    rfl

/-- Rotations of distinct qubits merge if none is idle. -/
theorem merges_rotation :
    Merges (fun entries => .rotation (.ofList entries)) fun entries =>
      (entries.map Prod.fst).Nodup ∧ ∀ entry ∈ entries, entry.2 ≠ .identity where
  start together := by
    obtain ⟨distinct, turning⟩ := together
    rw [List.map_append] at distinct
    exact ⟨distinct.of_append_left, fun entry member =>
      turning entry (List.mem_append_left _ member)⟩
  merge together := by
    rw [Layer.absorb?, RotationLayer.followedBy_ofList together.1 together.2]

/-- Coordinates of distinct qubits merge. -/
theorem merges_qubitCoords :
    Merges (fun entries => .qubitCoords (.ofList entries)) fun entries =>
      (entries.map Prod.fst).Nodup where
  start together := by
    rw [List.map_append] at together
    exact together.of_append_left
  merge together := by rw [Layer.absorb?, QubitMap.insertAll_ofList together]

/-- Detectors and observables merge. -/
theorem merges_parity : Merges .parity fun _ => True where
  start _ := trivial
  merge _ := rfl

end StabilizerLayers
