import StabilizerLayers.Proofs.Schedule.LayerInstructions
import StabilizerLayers.Proofs.Schedule.Readings
import StabilizerLayers.Proofs.Schedule.WritingOrder

/-!
# Writing and grouping again

A schedule is tidy if no layer is empty, the entries of each layer may share a slot and
have the form that grouping gives them, and no two neighbours are metadata of one kind.
A tidy schedule can be written, and grouping the circuit gives back the schedule, with
the pairs of each layer in the order in which they are written.

Writing and grouping keep track of ticks on their own. They agree because of two facts
about the slot that is open in grouping. If a tick is owed then there is something in
the slot, so that the tick closes it and leaves no empty layer behind. If none is owed
then the slot holds nothing but metadata, which the next layer does not join.
-/

namespace StabilizerLayers

/-! ### Tidy schedules -/

/-- Whether an exchange can be done together with a coupling: it couples along Z, and
    along Z or X. -/
def Coupling.Exchanges (coupling : Coupling) : Prop :=
  (coupling.first.basis = .Z ∧ coupling.second.basis = .Z) ∨
    (coupling.first.basis = .Z ∧ coupling.second.basis = .X) ∨
    (coupling.first.basis = .X ∧ coupling.second.basis = .Z)

instance : DecidablePred Coupling.Exchanges := fun _ => inferInstanceAs (Decidable (_ ∨ _ ∨ _))

namespace Layer

/-- Whether a layer other than a loop has entries, which may share a slot and have the
    form that grouping gives them. -/
def Tidy : Layer → Prop
  | reset targets => targets.entries ≠ []
  | measure targets => targets ≠ [] ∧ (targets.map fun target => target.id).Nodup
  | interact couplings => couplings ≠ [] ∧ (couplings.flatMap Coupling.qubits).Nodup
  | interactSwap couplings =>
    couplings ≠ [] ∧ (couplings.flatMap Coupling.qubits).Nodup ∧
      ∀ coupling ∈ couplings, coupling.Exchanges
  | swap pairs | iswap pairs =>
    pairs ≠ [] ∧ (pairs.flatMap pairQubits).Nodup ∧ ∀ pair ∈ pairs, pair.1 < pair.2
  | sqrtProduct pairs => pairs ≠ [] ∧ (pairs.flatMap SqrtPair.qubits).Nodup
  | feedback entries =>
    entries ≠ [] ∧ (entries.map fun entry => entry.id).Nodup ∧
      ∀ entry ∈ entries, entry.control.isClassical = true
  | rotation rotations =>
    rotations.rotations.entries ≠ [] ∧ ∀ entry ∈ rotations.rotations.entries, entry.2 ≠ .identity
  | product targets =>
    targets ≠ [] ∧ FormsProducts targets ∧ Spread (Instruction.productUnits targets)
  | parity instructions =>
    instructions ≠ [] ∧ ∀ instruction ∈ instructions,
      instruction.isParity = true ∧ instruction.validate = .ok ()
  | qubitCoords coordinates => coordinates.entries ≠ []
  | shiftCoords _ => True
  | empty | loop _ _ => False

instance : DecidablePred Tidy
  | reset _ | qubitCoords _ => inferInstanceAs (Decidable (_ ≠ []))
  | measure _ | interact _ | sqrtProduct _ | rotation _ | parity _ =>
    inferInstanceAs (Decidable (_ ∧ _))
  | interactSwap _ | feedback _ | product _ => inferInstanceAs (Decidable (_ ∧ _ ∧ _))
  | swap pairs | iswap pairs =>
    -- without this, all pairs of qubits would be looked at
    haveI := List.decidableBAll (fun pair : Qubit × Qubit => pair.1 < pair.2) pairs
    inferInstanceAs (Decidable (_ ∧ _ ∧ _))
  | shiftCoords _ => .isTrue trivial
  | empty | loop _ _ => .isFalse id

/-- Whether two layers are not metadata of one kind. -/
def Separate (first second : Layer) : Prop := first.isMetadata = true → first.kind ≠ second.kind

instance (first second : Layer) : Decidable (first.Separate second) :=
  inferInstanceAs (Decidable (_ → _))

mutual

/-- Whether no neighbours in the body of a layer are metadata of one kind. -/
def SeparateWithin : Layer → Prop
  | loop _ body => AllSeparate body
  | _ => True

/-- Whether no neighbours, in bodies too, are metadata of one kind. -/
def AllSeparate : List Layer → Prop
  | [] => True
  | first :: rest =>
    first.SeparateWithin ∧ (∀ next ∈ rest.head?, first.Separate next) ∧ AllSeparate rest

end

end Layer

namespace Schedule

/-- Whether all layers, in bodies too, are tidy, and no neighbours are metadata of one
    kind. -/
structure Tidy (schedule : Schedule) : Prop where
  layers : Layer.Everywhere Layer.Tidy schedule
  separate : Layer.AllSeparate schedule

end Schedule

/-! ### Layers -/

/-- Sorting leaves some entries where there are some. -/
theorem sortByKey_ne_nil {α : Type} {key : α → List Nat} {entries : List α}
    (some : entries ≠ []) : sortByKey key entries ≠ [] := fun none =>
  some (List.perm_nil.mp (none ▸ (sortByKey_perm key entries).symm))

/-- Entries that name no qubit twice share none. -/
theorem spread_map_of_nodup {α : Type} {qubits : α → List Qubit} {entries : List α}
    (once : (entries.flatMap qubits).Nodup) : Spread (entries.map qubits) :=
  (List.nodup_flatten.mp (List.flatMap_def ▸ once)).2

/-- A coupling with an exchange has, in writing order, a gate that does both. -/
theorem Coupling.isSome_swapGate?_canonical {coupling : Coupling} (exchanges : coupling.Exchanges) :
    coupling.canonical.swapGate?.isSome = true := by
  obtain ⟨⟨id, first⟩, ⟨other, second⟩⟩ := coupling
  rcases exchanges with ⟨rfl, rfl⟩ | ⟨rfl, rfl⟩ | ⟨rfl, rfl⟩
  · rw [canonical]
    split <;> rfl
  · rfl
  · rfl

/-- Entries of a layer that takes time are grouped again after they have been joined. -/
theorem Grouping.takes_joined {α : Type} {gate : α → Gate} {targets : α → List Target}
    {build : List α → Layer} {together : List α → Prop} {entries : List α}
    {pieces : List Instruction} (merges : Merges build together)
    (readable : Readable gate targets build entries) (listed : Lists gate targets entries pieces)
    (some : entries ≠ []) (allowed : together entries) {closed current : List Layer}
    (fresh : ∀ latest ∈ current.head?, ∀ entries, latest.kind ≠ (build entries).kind) :
    (⟨closed, current⟩ : Grouping).Takes ((Instruction.joined pieces).map .single)
      ⟨closed, build entries :: current⟩ :=
  takes_reads merges (listed.joined.reads readable) some allowed fun latest member entries =>
    Layer.absorb?_eq_none (fresh latest member entries)

namespace Layer

variable {closed current : List Layer}

/-- Resets are grouped again. -/
theorem takes_reset {targets : QubitMap Basis} (tidy : (reset targets).Tidy)
    (fresh : ∀ latest ∈ current.head?, latest.kind ≠ .reset) :
    (⟨closed, current⟩ : Grouping).Takes ((reset targets).lines.map .single)
      ⟨closed, reset targets :: current⟩ := by
  have perm := perm_entriesByValue targets (by decide : Basis.byRank.Nodup) fun entry _ => by
    cases entry.2 <;> decide
  have listed : Lists _ _ _ (resetInstructions targets) := Lists.byValue .reset fun _ _ => rfl
  have taken : (⟨closed, current⟩ : Grouping).Takes _ _ :=
    Grouping.takes_joined merges_reset (readable_reset _) listed
      (fun none => tidy (List.perm_nil.mp (none ▸ perm.symm)))
      ((perm.map Prod.fst).nodup_iff.mpr targets.nodup_keys) fun latest member _ =>
      fresh latest member
  rwa [QubitMap.ofList_eq_of_perm perm] at taken

/-- Rotations are grouped again. -/
theorem takes_rotation {rotations : RotationLayer} (tidy : (rotation rotations).Tidy)
    (fresh : ∀ latest ∈ current.head?, latest.kind ≠ .rotation) :
    (⟨closed, current⟩ : Grouping).Takes ((rotation rotations).lines.map .single)
      ⟨closed, rotation rotations :: current⟩ := by
  have perm := perm_entriesByValue rotations.rotations (by decide : Rotation.all.Nodup)
    fun entry _ => by rcases entry.2 with _ | (_ | _ | _) | _ | _ <;> decide
  have distinct := (perm.map Prod.fst).nodup_iff.mpr rotations.rotations.nodup_keys
  have turning := fun entry member => tidy.2 entry (perm.mem_iff.mp member)
  have unturned : (rotations.rotations.keysWhere fun held => held == .identity) = [] := by
    refine List.eq_nil_iff_forall_not_mem.mpr fun id member => ?_
    obtain ⟨turn, listed, idle⟩ := QubitMap.mem_keysWhere.mp member
    exact tidy.2 _ listed (beq_iff_eq.mp idle)
  have listed : Lists _ _ _ rotations.instructions :=
    Lists.byValue (fun turn => turn.gate?.getD .identity) fun turn _ => by
      cases turn with
      | identity => rw [unturned]; rfl
      | exchange _ | cycleXYZ | cycleZYX => rfl
  have taken : (⟨closed, current⟩ : Grouping).Takes _ _ :=
    Grouping.takes_joined merges_rotation (readable_rotation turning) listed
      (fun none => tidy.1 (List.perm_nil.mp (none ▸ perm.symm))) ⟨distinct, turning⟩
      fun latest member _ => fresh latest member
  rwa [RotationLayer.ofList_eq distinct, QubitMap.ofList_eq_of_perm perm] at taken

/-- Couplings are grouped again, in writing order. -/
theorem takes_interact {couplings : List Coupling} (tidy : (interact couplings).Tidy)
    (fresh : ∀ latest ∈ current.head?, latest.kind ≠ .interact) :
    (⟨closed, current⟩ : Grouping).Takes ((interact couplings).lines.map .single)
      ⟨closed, interact (Coupling.sorted couplings) :: current⟩ := by
  have some : Coupling.sorted couplings ≠ [] := sortByKey_ne_nil (by simpa using tidy.1)
  exact Grouping.takes_joined (merges_disjoint (fun _ => rfl) fun _ _ => rfl)
    (readable_interact _) (.single _) some (spread_map_of_nodup (Coupling.nodup_sorted tidy.2))
    fun latest member _ => fresh latest member

/-- Couplings with exchanges are grouped again, in writing order. -/
theorem takes_interactSwap {couplings : List Coupling} (tidy : (interactSwap couplings).Tidy)
    (fresh : ∀ latest ∈ current.head?, latest.kind ≠ .interactSwap) :
    (⟨closed, current⟩ : Grouping).Takes ((interactSwap couplings).lines.map .single)
      ⟨closed, interactSwap (Coupling.sorted couplings) :: current⟩ := by
  have some : Coupling.sorted couplings ≠ [] := sortByKey_ne_nil (by simpa using tidy.1)
  have own : ∀ coupling ∈ Coupling.sorted couplings, coupling.swapGate?.isSome = true := by
    intro coupling member
    obtain ⟨original, listed, rfl⟩ :=
      List.mem_map.mp ((sortByKey_perm Coupling.key _).mem_iff.mp member)
    exact Coupling.isSome_swapGate?_canonical (tidy.2.2 original listed)
  have taken : (⟨closed, current⟩ : Grouping).Takes _ _ :=
    Grouping.takes_joined (merges_disjoint (fun _ => rfl) fun _ _ => rfl)
      (readable_interactSwap own) (.single _) some
      (spread_map_of_nodup (Coupling.nodup_sorted tidy.2.1)) fun latest member _ =>
      fresh latest member
  rw [lines, pieces, Coupling.swapInstructions_eq own]
  exact taken

/-- Exchanges with the smaller qubit first are grouped again, in writing order. -/
theorem takes_exchange {gate : Gate} {build : List (Qubit × Qubit) → Layer}
    (layers : ∀ instruction : Instruction, instruction.gate? = some gate →
      instruction.layers = instruction.exchangeLayers build)
    (touched : ∀ pairs, (build pairs).touched = pairs.flatMap pairQubits)
    (absorb : ∀ first second, (build first).absorb? (build second) =
      mergeDisjoint (fun pairs => (build pairs).touched) build first second)
    {pairs : List (Qubit × Qubit)} (tidy : (swap pairs).Tidy)
    (fresh : ∀ latest ∈ current.head?, ∀ pairs, latest.kind ≠ (build pairs).kind) :
    (⟨closed, current⟩ : Grouping).Takes
      ((Instruction.joined (exchangeInstructions gate pairs)).map .single)
      ⟨closed, build (sortedPairs pairs) :: current⟩ := by
  have perm := sortByKey_perm pairKey pairs
  have once := (perm.flatMap_right pairQubits).nodup_iff.mpr tidy.2.1
  exact Grouping.takes_joined (merges_disjoint touched absorb)
    (readable_exchange layers fun pair member => tidy.2.2 pair (perm.mem_iff.mp member)) (.single _)
    (sortByKey_ne_nil tidy.1) (spread_map_of_nodup once) fresh

/-- Square roots are grouped again, in writing order. -/
theorem takes_sqrtProduct {pairs : List SqrtPair} (tidy : (sqrtProduct pairs).Tidy)
    (fresh : ∀ latest ∈ current.head?, latest.kind ≠ .sqrtProduct) :
    (⟨closed, current⟩ : Grouping).Takes ((sqrtProduct pairs).lines.map .single)
      ⟨closed, sqrtProduct (SqrtPair.sorted pairs) :: current⟩ := by
  have perm := sortByKey_perm SqrtPair.key pairs
  have qubits : ((SqrtPair.sorted pairs).flatMap SqrtPair.qubits).Perm
      (pairs.flatMap SqrtPair.qubits) := by
    rw [SqrtPair.sorted, List.flatMap_map]
    exact (perm.flatMap_right _).trans
      (List.Perm.flatMap_left _ fun pair _ => perm_pairQubits_smallerFirst _ _)
  have some : SqrtPair.sorted pairs ≠ [] := by
    simpa [SqrtPair.sorted] using sortByKey_ne_nil tidy.1
  have taken : (⟨closed, current⟩ : Grouping).Takes _ _ :=
    Grouping.takes_joined (merges_disjoint (fun _ => rfl) fun _ _ => rfl)
      (readable_sqrtProduct (SqrtPair.sorted pairs)) (.single _) some
      (spread_map_of_nodup (qubits.nodup_iff.mpr tidy.2)) fun latest member _ =>
      fresh latest member
  rw [SqrtPair.sorted, List.map_map] at taken
  exact taken

/-- Products are grouped again. -/
theorem takes_product {targets : List Target} (tidy : (product targets).Tidy)
    (fresh : ∀ latest ∈ current.head?, latest.kind ≠ .product) :
    (⟨closed, current⟩ : Grouping).Takes ((product targets).lines.map .single)
      ⟨closed, product targets :: current⟩ := by
  obtain ⟨nonempty, formed, spread⟩ := tidy
  have whole : (products targets).flatten = targets := List.flatten_splitBy ..
  have some : products targets ≠ [] := List.splitBy_ne_nil.mpr nonempty
  have listed : Lists (fun _ => .measureProduct) id (products targets)
      [.on .measureProduct targets] := by
    have none : Lists (fun _ : List Target => .measureProduct) id [] [] := .nil
    have run := none.cons some fun _ _ => rfl
    rwa [List.append_nil, List.flatMap_id, whole] at run
  have merges : Merges (fun entries => product entries.flatten) fun entries =>
      Spread (entries.map fun factors => factors.filterMap Target.qubit?) :=
    merges_disjoint (fun entries => List.filterMap_flatten) fun first second => by
      simp [absorb?, mergeDisjoint]
  have taken : (⟨closed, current⟩ : Grouping).Takes _ _ :=
    Grouping.takes_joined merges (readable_product formed) listed some spread
      fun latest member _ => fresh latest member
  rwa [whole] at taken

/-- Metadata is grouped again. -/
theorem takes_metadata {layer : Layer} (tidy : layer.Tidy) (metadata : layer.isMetadata = true)
    (fresh : ∀ latest ∈ current.head?, latest.kind ≠ layer.kind) :
    (⟨closed, current⟩ : Grouping).Takes (layer.lines.map .single)
      ⟨closed, layer :: current⟩ := by
  rw [lines, if_pos metadata]
  cases layer with
  | parity instructions =>
    have reads : Reads parity instructions (instructions.map id) := by
      refine .single fun instruction member => ?_
      have named := (tidy.2 instruction member).1
      rw [Instruction.isParity, Bool.or_eq_true, beq_iff_eq, beq_iff_eq] at named
      rcases named with applied | applied
      · simp [Instruction.applies, Instruction.layers, applied, Instruction.gateLayers]
      · simp [Instruction.applies, Instruction.layers, applied, Instruction.gateLayers]
    rw [List.map_id] at reads
    exact Grouping.takes_reads merges_parity reads tidy.1 trivial fun latest member _ =>
      absorb?_eq_none (fresh latest member)
  | qubitCoords coordinates =>
    have reads : Reads (fun entries => qubitCoords (.ofList entries)) coordinates.entries
        (coordinates.entries.map coordsInstruction) := .single fun _ _ => ⟨rfl, rfl⟩
    have taken : (⟨closed, current⟩ : Grouping).Takes _ _ :=
      Grouping.takes_reads merges_qubitCoords reads tidy coordinates.nodup_keys
        fun latest member _ => absorb?_eq_none (fresh latest member)
    rwa [QubitMap.ofList_entries] at taken
  | shiftCoords shift =>
    have pushed : (⟨closed, current⟩ : Grouping).pushAll [shiftCoords shift] =
        ⟨closed, shiftCoords shift :: current⟩ :=
      Grouping.push_of_fresh fun latest member => absorb?_eq_none (fresh latest member)
    rw [← pushed]
    exact Grouping.takes_single _ rfl rfl
  | reset _ | measure _ | interact _ | interactSwap _ | swap _ | iswap _ | sqrtProduct _
  | feedback _ | rotation _ | product _ | empty | loop _ _ => cases metadata

/-- A layer other than a loop is grouped again, its pairs in writing order, where the
    latest layer of the slot is of another kind. -/
theorem takes_lines {layer : Layer} (tidy : layer.Tidy)
    (fresh : ∀ latest ∈ current.head?, latest.kind ≠ layer.kind) :
    (⟨closed, current⟩ : Grouping).Takes (layer.lines.map .single)
      ⟨closed, layer.inWritingOrder :: current⟩ := by
  cases layer with
  | reset targets => exact takes_reset tidy fresh
  | rotation rotations => exact takes_rotation tidy fresh
  | interact couplings => exact takes_interact tidy fresh
  | interactSwap couplings => exact takes_interactSwap tidy fresh
  | swap pairs =>
    exact takes_exchange (fun instruction applied => by rw [Instruction.layers, applied]; rfl)
      (fun _ => rfl) (fun _ _ => rfl) tidy fun latest member _ => fresh latest member
  | iswap pairs =>
    exact takes_exchange (fun instruction applied => by rw [Instruction.layers, applied]; rfl)
      (fun _ => rfl) (fun _ _ => rfl) tidy fun latest member _ => fresh latest member
  | sqrtProduct pairs => exact takes_sqrtProduct tidy fresh
  | product targets => exact takes_product tidy fresh
  | measure targets =>
    have spread : Spread (targets.map fun target => [target.id]) :=
      spread_map_of_nodup (List.map_eq_flatMap ▸ tidy.2)
    have merges : Merges measure fun targets => Spread (targets.map fun target => [target.id]) :=
      merges_disjoint (fun _ => List.map_eq_flatMap) fun _ _ => rfl
    exact Grouping.takes_joined merges (readable_measure targets) (.single _) tidy.1 spread
      fun latest member _ => fresh latest member
  | feedback entries =>
    have spread : Spread (entries.map fun entry => [entry.id]) :=
      spread_map_of_nodup (List.map_eq_flatMap ▸ tidy.2.1)
    have merges : Merges feedback fun entries => Spread (entries.map fun entry => [entry.id]) :=
      merges_disjoint (fun _ => List.map_eq_flatMap) fun _ _ => rfl
    exact Grouping.takes_joined merges (readable_feedback tidy.2.2) (.single _) tidy.1 spread
      fun latest member _ => fresh latest member
  | parity _ | qubitCoords _ | shiftCoords _ => exact takes_metadata tidy rfl fresh
  | empty | loop _ _ => exact tidy.elim

end Layer

/-! ### Schedules -/

namespace Grouping

/-- A tick is taken as one. -/
theorem takes_tick (grouping : Grouping) : grouping.Takes [.single .tick] grouping.tick :=
  fun _ => rfl

/-- A tick after something leaves no empty layer. -/
theorem tick_of_ne_nil {closed current : List Layer} (some : current ≠ []) :
    (⟨closed, current⟩ : Grouping).tick = ⟨current ++ closed, []⟩ := by
  cases current with
  | nil => exact absurd rfl some
  | cons _ _ => rfl

/-- A block is taken as a loop if its body is taken. -/
theorem takes_block (grouping : Grouping) {next : Grouping} {body : List Operation}
    (inner : start.Takes body next) (repetitions : UInt64) :
    grouping.Takes [.block repetitions body] (grouping.pushLoop repetitions next.schedule) := by
  intro rest
  simp [operations, operation, inner.operations_eq_ok]

/-- Whether the open slot is as it must be where a tick is owed or not, and the next
    layer does not join it. -/
structure Ready (grouping : Grouping) (owed : Bool) (layers : List Layer) : Prop where
  held : owed = true → grouping.current ≠ []
  light : owed = false → ∀ layer ∈ grouping.current, layer.isMetadata = true
  separate : ∀ latest ∈ grouping.current.head?, ∀ next ∈ layers.head?, latest.Separate next

/-- The tick that a layer needs leaves nothing but metadata in the slot. -/
theorem Ready.takes_tickBefore {grouping : Grouping} {owed : Bool} {layer : Layer}
    {layers : List Layer} (ready : grouping.Ready owed layers)
    (timed : layer.isMetadata = false) :
    ∃ next : Grouping, grouping.Takes (layer.tickBefore owed) next ∧
      next.schedule = grouping.schedule ∧ ∀ held ∈ next.current, held.isMetadata = true := by
  obtain ⟨closed, current⟩ := grouping
  rw [Layer.tickBefore, Layer.needsTickBefore, timed]
  cases owed with
  | false => exact ⟨_, takes_nil _, rfl, ready.light rfl⟩
  | true =>
    have ticked := takes_tick ⟨closed, current⟩
    rw [tick_of_ne_nil (ready.held rfl)] at ticked
    exact ⟨_, ticked, rfl, List.forall_mem_nil _⟩

end Grouping

namespace Layer

/-- A layer that is separate from metadata after it is of another kind. -/
theorem Separate.kind_ne {first second : Layer} (separate : first.Separate second)
    (metadata : second.isMetadata = true) : first.kind ≠ second.kind := fun same =>
  separate ((isMetadata_of_kind same).trans metadata) same

/-- Writing order keeps layers separate. -/
theorem Separate.inWritingOrder {first second : Layer} (separate : first.Separate second) :
    first.inWritingOrder.Separate second := by
  intro metadata
  rw [kind_inWritingOrder]
  exact separate ((isMetadata_of_kind (kind_inWritingOrder first)).symm.trans metadata)

/-- A tidy layer that takes time and is no loop is grouped again after metadata. -/
theorem takes_flat {layer : Layer} (tidy : layer.Tidy) (flat : layer.isLoop = false)
    (timed : layer.isMetadata = false) {grouping : Grouping}
    (light : ∀ held ∈ grouping.current, held.isMetadata = true) :
    ∃ next : Grouping, grouping.Takes layer.operations next ∧
      next.schedule = grouping.schedule ++ [layer.inWritingOrder] ∧
      ∀ layers, next.Ready true layers := by
  obtain ⟨closed, current⟩ := grouping
  have fresh : ∀ latest ∈ current.head?, latest.kind ≠ layer.kind := by
    intro latest member same
    have metadata := light latest (List.mem_of_mem_head? member)
    rw [isMetadata_of_kind same, timed] at metadata
    cases metadata
  rw [operations_of_flat flat]
  refine ⟨_, takes_lines tidy fresh, by simp [Grouping.schedule], fun layers => ?_⟩
  refine ⟨by simp, by simp, fun latest member next _ metadata => ?_⟩
  obtain rfl : layer.inWritingOrder = latest := by simpa using member
  rw [isMetadata_of_kind (kind_inWritingOrder layer), timed] at metadata
  cases metadata

/-- A block of a body that is grouped again is grouped again as a loop. -/
theorem takes_loop {body : List Layer} {inner : Grouping}
    (taken : Grouping.start.Takes (operationsAll false body) inner)
    (same : inner.schedule = allInWritingOrder body)
    (held : Schedule.owesTick body = true → inner.current ≠ []) (grouping : Grouping)
    (repetitions : UInt64) :
    ∃ next : Grouping, grouping.Takes (loop repetitions body).operations next ∧
      next.schedule = grouping.schedule ++ [(loop repetitions body).inWritingOrder] ∧
      ∀ layers, next.Ready false layers := by
  obtain ⟨last, ticked, closed⟩ : ∃ last : Grouping, inner.Takes (closingTick body) last ∧
      last.schedule = inner.schedule := by
    rw [closingTick]
    cases owes : Schedule.owesTick body with
    | false => exact ⟨inner, inner.takes_nil, rfl⟩
    | true =>
      have closes := inner.takes_tick
      rw [Grouping.tick_of_ne_nil (held owes)] at closes
      exact ⟨_, closes, rfl⟩
  have whole := grouping.takes_block (taken.append ticked) repetitions
  rw [closed, same] at whole
  rw [operations]
  refine ⟨_, whole, ?_, fun layers => ⟨by simp, ?_, ?_⟩⟩
  · simp [Grouping.pushLoop, Grouping.schedule, inWritingOrder]
  · exact fun _ => nofun
  · exact nofun

mutual

/-- A tidy layer that takes time is grouped again after metadata. -/
theorem takes_operations {layer : Layer} (tidy : layer.Within Tidy)
    (separate : layer.SeparateWithin) (timed : layer.isMetadata = false) {grouping : Grouping}
    (light : ∀ held ∈ grouping.current, held.isMetadata = true) :
    ∃ next : Grouping, grouping.Takes layer.operations next ∧
      next.schedule = grouping.schedule ++ [layer.inWritingOrder] ∧
      ∀ layers, next.Ready layer.owesTick layers := by
  cases layer with
  | loop repetitions body =>
    have ready : Grouping.start.Ready false body := ⟨nofun, fun _ => nofun, nofun⟩
    obtain ⟨inner, taken, same, held⟩ := takes_operationsAll tidy separate ready
    exact takes_loop taken same held grouping repetitions
  | reset _ | measure _ | interact _ | interactSwap _ | swap _ | iswap _ | sqrtProduct _
  | feedback _ | rotation _ | product _ | empty =>
    exact takes_flat ((within_of_flat rfl).mp tidy) rfl rfl light
  | parity _ | qubitCoords _ | shiftCoords _ => cases timed

/-- Tidy layers are grouped again. -/
theorem takes_operationsAll {layers : List Layer} (tidy : Everywhere Tidy layers)
    (separate : AllSeparate layers) {grouping : Grouping} {owed : Bool}
    (ready : grouping.Ready owed layers) :
    ∃ next : Grouping, grouping.Takes (operationsAll owed layers) next ∧
      next.schedule = grouping.schedule ++ allInWritingOrder layers ∧
      (Schedule.owesTickAfter owed layers = true → next.current ≠ []) := by
  cases layers with
  | nil => exact ⟨grouping, grouping.takes_nil, by simp [allInWritingOrder], ready.held⟩
  | cons layer rest =>
    obtain ⟨within, apart, later⟩ := separate
    rw [operationsAll, Schedule.owesTickAfter, allInWritingOrder]
    cases metadata : layer.isMetadata with
    | true =>
      obtain ⟨closed, current⟩ := grouping
      have flat := flat_of_metadata metadata
      have here : (⟨closed, current⟩ : Grouping).Takes _ _ :=
        takes_lines ((within_of_flat flat).mp tidy.1) fun latest member =>
          (ready.separate latest member layer (by simp)).kind_ne metadata
      have next : (⟨closed, layer.inWritingOrder :: current⟩ : Grouping).Ready owed rest := by
        refine ⟨by simp, fun light held member => ?_, fun latest member other first => ?_⟩
        · rcases List.mem_cons.mp member with rfl | before
          · exact (isMetadata_of_kind (kind_inWritingOrder layer)).trans metadata
          · exact ready.light light held before
        · obtain rfl : layer.inWritingOrder = latest := by simpa using member
          exact (apart other first).inWritingOrder
      obtain ⟨last, taken, same, held⟩ := takes_operationsAll tidy.2 later next
      rw [tickBefore_of_metadata metadata, owed_of_metadata metadata, operations_of_flat flat]
      refine ⟨last, here.append taken, ?_, held⟩
      simpa [Grouping.schedule] using same
    -- A layer that takes time settles the tick that is owed, so what was owed before does not
    -- matter behind it.
    | false =>
      have owes : (layer.owesTick || (owed && !layer.needsTickBefore)) = layer.owesTick := by
        simp [needsTickBefore, metadata]
      obtain ⟨middle, ticked, before, light⟩ := ready.takes_tickBefore metadata
      obtain ⟨next, here, grown, nextReady⟩ := takes_operations tidy.1 within metadata light
      obtain ⟨last, taken, same, held⟩ := takes_operationsAll tidy.2 later (nextReady rest)
      rw [owes]
      refine ⟨last, (ticked.append here).append taken, ?_, held⟩
      rw [same, grown, before, List.append_assoc, List.singleton_append]

end

/-- A tidy layer is well formed, and its detectors and observables are valid. -/
theorem Tidy.follows {layer : Layer} (tidy : layer.Tidy) : layer.Follows .valid := by
  have formed : layer.WellFormed := by
    cases layer with
    | measure _ | interact _ | sqrtProduct _ => exact tidy.2
    | interactSwap _ | swap _ | iswap _ | product _ => exact tidy.2.1
    | feedback _ => exact tidy.2.2
    | parity _ => exact fun instruction member => (tidy.2 instruction member).1
    | reset _ | rotation _ | qubitCoords _ | shiftCoords _ | empty | loop _ _ => trivial
  refine formed.follows ?_
  cases layer with
  | parity _ => exact fun instruction member => (tidy.2 instruction member).2
  | reset _ | measure _ | interact _ | interactSwap _ | swap _ | iswap _ | sqrtProduct _
  | feedback _ | rotation _ | product _ | qubitCoords _ | shiftCoords _ | empty | loop _ _ =>
    trivial

end Layer

namespace Schedule

/-- A tidy schedule can be written, and grouping the circuit gives the schedule in
    writing order, which is written as the same circuit. -/
theorem ofCircuit_toCircuit {schedule : Schedule} (tidy : schedule.Tidy) :
    ∃ circuit, schedule.toCircuit = .ok circuit ∧
      Schedule.ofCircuit circuit = .ok schedule.inWritingOrder ∧
      schedule.inWritingOrder.toCircuit = .ok circuit := by
  have follows := tidy.layers.imp fun _ _ here => Layer.Tidy.follows here
  have parities := follows.imp fun _ _ here =>
    Layer.holdsParities_of_follows (fun _ => And.left) here
  have writable := follows.imp fun _ _ here => Layer.writable_of_follows here
  have written := (toCircuit_eq_ok_iff parities).mpr ⟨writable, rfl⟩
  have ready : Grouping.start.Ready false schedule := ⟨nofun, fun _ => nofun, nofun⟩
  obtain ⟨next, taken, same, -⟩ := Layer.takes_operationsAll tidy.layers tidy.separate ready
  refine ⟨schedule.operations, written, ?_, toCircuit_inWritingOrder parities written⟩
  exact (congrArg _ taken.operations_eq_ok).trans (congrArg Except.ok same)

/-- A tidy schedule with couplings and exchanges out of order, products, feedback and
    metadata, and a loop that ends in a loop. -/
def sample : Schedule :=
  [.qubitCoords (.ofList [(1, [0.5]), (0, [])]), .reset (.ofList [(0, .X), (1, .Z), (2, .X)]),
    .interact [⟨⟨2, .Z⟩, ⟨1, .Z⟩⟩, ⟨⟨0, .X⟩, ⟨3, .Z⟩⟩],
    .parity [.on .detector []],
    .loop 3 [.shiftCoords [1.0], .interactSwap [⟨⟨1, .X⟩, ⟨0, .Z⟩⟩], .swap [(2, 3), (0, 1)],
      .product [.pauli .X 0 false, .combiner, .pauli .Z 1 true, .pauli .Y 2 false],
      .loop 2 [.feedback [⟨.record 1, 0, .X⟩], .sqrtProduct [⟨3, 2, .Z, true⟩]]],
    .shiftCoords [], .rotation ⟨.ofList [(1, .cycleXYZ), (0, .exchange .Y)]⟩,
    .measure [⟨2, .Y, true⟩, ⟨0, .Y, false⟩]]

/-- The sample is tidy at every depth. -/
theorem sample_tidy : sample.Tidy where
  layers := by
    simp only [sample, Layer.Everywhere, Layer.Within]
    decide
  separate := by
    simp only [sample, Layer.AllSeparate, Layer.SeparateWithin]
    decide

/-- The sample comes back in writing order. -/
theorem ofCircuit_toCircuit_sample :
    sample.Tidy ∧ ∃ circuit, sample.toCircuit = .ok circuit ∧
      Schedule.ofCircuit circuit = .ok sample.inWritingOrder ∧
      sample.inWritingOrder.toCircuit = .ok circuit :=
  ⟨sample_tidy, ofCircuit_toCircuit sample_tidy⟩

end Schedule

end StabilizerLayers
