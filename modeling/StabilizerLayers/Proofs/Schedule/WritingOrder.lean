import StabilizerLayers.Proofs.Ordering
import StabilizerLayers.Proofs.Schedule.Operations

/-!
# Writing order

Pairs are written in one order, whatever order their layer holds: the operands of each
pair first, then the pairs among themselves. A schedule whose layers hold their pairs in
that order is written as the same circuit.
-/

namespace StabilizerLayers

namespace SqrtPair

/-- The same square root with the smaller qubit first. -/
def canonical (pair : SqrtPair) : SqrtPair :=
  { pair with first := pair.ordered.1, second := pair.ordered.2 }

/-- Square roots in writing order. -/
def sorted (pairs : List SqrtPair) : List SqrtPair := (sortByKey key pairs).map canonical

end SqrtPair

namespace Layer

mutual

/-- The layer with its pairs in writing order, in its body too. -/
def inWritingOrder : Layer → Layer
  | interact couplings => interact (Coupling.sorted couplings)
  | interactSwap couplings => interactSwap (Coupling.sorted couplings)
  | swap pairs => swap (sortedPairs pairs)
  | iswap pairs => iswap (sortedPairs pairs)
  | sqrtProduct pairs => sqrtProduct (SqrtPair.sorted pairs)
  | loop repetitions body => loop repetitions (allInWritingOrder body)
  | layer => layer

/-- The layers with their pairs in writing order. -/
def allInWritingOrder : List Layer → List Layer
  | [] => []
  | first :: rest => first.inWritingOrder :: allInWritingOrder rest

end

/-- Writing order does not change the kind of a layer. -/
@[simp]
theorem kind_inWritingOrder (layer : Layer) : layer.inWritingOrder.kind = layer.kind := by
  cases layer <;> rfl

/-- The kind of a layer tells whether it is metadata. -/
theorem isMetadata_of_kind {first second : Layer} (same : first.kind = second.kind) :
    first.isMetadata = second.isMetadata := by
  cases first <;> cases second <;> first | rfl | cases same

end Layer

/-- The schedule with the pairs of every layer, in bodies too, in writing order. -/
def Schedule.inWritingOrder (schedule : Schedule) : Schedule := Layer.allInWritingOrder schedule

/-! ### Pairs -/

/-- Exchanging operands that stand in the wrong order puts them right. -/
theorem Coupling.isBackward_reversed {coupling : Coupling} (wrong : coupling.isBackward = true) :
    coupling.reversed.isBackward = false := by
  simp only [isBackward, reversed, Bool.or_eq_true, Bool.and_eq_true, decide_eq_true_eq,
    beq_iff_eq, Bool.or_eq_false_iff, Bool.and_eq_false_iff, beq_eq_false_iff_ne] at wrong ⊢
  rcases wrong with lower | ⟨same, smaller⟩
  · exact ⟨decide_eq_false (Nat.lt_asymm lower), .inl (Nat.ne_of_lt lower)⟩
  · refine ⟨decide_eq_false ?_, .inr (decide_eq_false (UInt32.lt_asymm smaller))⟩
    exact same ▸ Nat.lt_irrefl _

/-- Operands in writing order stay there. -/
theorem Coupling.canonical_canonical (coupling : Coupling) :
    coupling.canonical.canonical = coupling.canonical := by
  have right : coupling.canonical.isBackward = false := by
    rw [canonical]
    split
    · rename_i wrong
      exact isBackward_reversed wrong
    · rename_i right
      exact Bool.eq_false_iff.mpr right
  rw [canonical, right]
  rfl

/-- Couplings in writing order stay there. -/
theorem Coupling.sorted_sorted (couplings : List Coupling) :
    sorted (sorted couplings) = sorted couplings := by
  have canonical : (sorted couplings).map canonical = sorted couplings := by
    refine (List.map_congr_left fun coupling member => ?_).trans (List.map_id _)
    obtain ⟨original, -, rfl⟩ := List.mem_map.mp ((sortByKey_perm key _).mem_iff.mp member)
    exact original.canonical_canonical
  rw [sorted, canonical]
  exact sortByKey_of_pairwise (pairwise_sortByKey key _)

/-- Two qubits with the smaller one first stay so. -/
theorem smallerFirst_smallerFirst (first second : Qubit) :
    smallerFirst (smallerFirst first second).1 (smallerFirst first second).2 =
      smallerFirst first second := by
  by_cases less : second < first
  · simp [smallerFirst, less, UInt32.lt_asymm less]
  · simp [smallerFirst, less]

namespace SqrtPair

/-- The smaller qubit first stays first. -/
theorem ordered_canonical (pair : SqrtPair) : pair.canonical.ordered = pair.ordered :=
  smallerFirst_smallerFirst pair.first pair.second

/-- The order of the qubits does not change the place of a square root. -/
theorem key_canonical (pair : SqrtPair) : pair.canonical.key = pair.key := by
  rw [key, key, ordered_canonical]
  rfl

/-- The order of the qubits does not change the instruction of a square root. -/
theorem instruction_canonical (pair : SqrtPair) :
    pair.canonical.instruction = pair.instruction := by
  rw [instruction, instruction, ordered_canonical]
  rfl

/-- Square roots in writing order are written in the same way. -/
theorem instructions_sorted (pairs : List SqrtPair) :
    instructions (sorted pairs) = instructions pairs := by
  have ascending : (sorted pairs).Pairwise fun earlier later => key earlier ≤ key later := by
    refine List.pairwise_map.mpr ((pairwise_sortByKey key pairs).imp fun least => ?_)
    rwa [key_canonical, key_canonical]
  rw [instructions, sortByKey_of_pairwise ascending, sorted, List.map_map]
  exact List.map_congr_left fun pair _ => pair.instruction_canonical

end SqrtPair

namespace Layer

/-- A layer in writing order is written with the same instructions. -/
theorem pieces_inWritingOrder {layer : Layer} (flat : layer.isLoop = false) :
    layer.inWritingOrder.pieces = layer.pieces := by
  have exchanged : ∀ pairs, sortedPairs (sortedPairs pairs) = sortedPairs pairs := fun pairs =>
    sortByKey_of_pairwise (pairwise_sortByKey pairKey pairs)
  cases layer with
  | interact couplings =>
    simp only [inWritingOrder, pieces, Coupling.instructions, Coupling.sorted_sorted]
  | interactSwap couplings =>
    simp only [inWritingOrder, pieces, Coupling.swapInstructions, Coupling.sorted_sorted]
  | swap pairs | iswap pairs => simp only [inWritingOrder, pieces, exchangeInstructions, exchanged]
  | sqrtProduct pairs => exact SqrtPair.instructions_sorted pairs
  | loop _ _ => cases flat
  | reset _ | measure _ | feedback _ | rotation _ | product _ | parity _ | qubitCoords _
  | shiftCoords _ | empty => rfl

/-- Writing order does not change the lines of a layer. -/
theorem lines_inWritingOrder {layer : Layer} (flat : layer.isLoop = false) :
    layer.inWritingOrder.lines = layer.lines := by
  rw [lines, lines, pieces_inWritingOrder flat, isMetadata_of_kind (kind_inWritingOrder layer)]

/-- Writing order does not change which tick a layer owes. -/
theorem owesTick_inWritingOrder (layer : Layer) :
    layer.inWritingOrder.owesTick = layer.owesTick := by
  cases layer <;> rfl

/-- Writing order does not change which tick a layer needs. -/
theorem needsTickBefore_inWritingOrder (layer : Layer) :
    layer.inWritingOrder.needsTickBefore = layer.needsTickBefore := by
  cases layer <;> rfl

/-- Writing order does not change which tick is owed at the end. -/
theorem owesTickAfter_allInWritingOrder (owed : Bool) (layers : List Layer) :
    Schedule.owesTickAfter owed (allInWritingOrder layers) =
      Schedule.owesTickAfter owed layers := by
  induction layers generalizing owed with
  | nil => rfl
  | cons layer rest inductionHypothesis =>
    rw [allInWritingOrder, Schedule.owesTickAfter, Schedule.owesTickAfter, inductionHypothesis,
      owesTick_inWritingOrder, needsTickBefore_inWritingOrder]

mutual

/-- A layer in writing order is written in the same way. -/
theorem operations_inWritingOrder (layer : Layer) :
    layer.inWritingOrder.operations = layer.operations := by
  cases layer with
  | loop repetitions body =>
    rw [inWritingOrder, operations, operations, operationsAll_allInWritingOrder, closingTick,
      closingTick, Schedule.owesTick, Schedule.owesTick, owesTickAfter_allInWritingOrder]
  | reset _ | measure _ | interact _ | interactSwap _ | swap _ | iswap _ | sqrtProduct _
  | feedback _ | rotation _ | product _ | parity _ | qubitCoords _ | shiftCoords _ | empty =>
    exact congrArg (List.map Operation.single) (lines_inWritingOrder rfl)

/-- Layers in writing order are written in the same way. -/
theorem operationsAll_allInWritingOrder (owed : Bool) (layers : List Layer) :
    operationsAll owed (allInWritingOrder layers) = operationsAll owed layers := by
  cases layers with
  | nil => rfl
  | cons layer rest =>
    rw [allInWritingOrder, operationsAll, operationsAll, operations_inWritingOrder,
      operationsAll_allInWritingOrder, tickBefore, tickBefore, owesTick_inWritingOrder,
      needsTickBefore_inWritingOrder]

end

mutual

/-- What writing order keeps of a layer holds of the layer and its body. -/
theorem within_inWritingOrder {holds : Layer → Prop}
    (each : ∀ layer : Layer, layer.isLoop = false → holds layer → holds layer.inWritingOrder)
    {layer : Layer} (here : layer.Within holds) : layer.inWritingOrder.Within holds := by
  cases layer with
  | loop repetitions body => exact everywhere_allInWritingOrder each here
  | reset _ | measure _ | interact _ | interactSwap _ | swap _ | iswap _ | sqrtProduct _
  | feedback _ | rotation _ | product _ | parity _ | qubitCoords _ | shiftCoords _ | empty =>
    exact (within_of_flat rfl).mpr (each _ rfl ((within_of_flat rfl).mp here))

/-- What writing order keeps of a layer holds everywhere. -/
theorem everywhere_allInWritingOrder {holds : Layer → Prop}
    (each : ∀ layer : Layer, layer.isLoop = false → holds layer → holds layer.inWritingOrder)
    {layers : List Layer} (here : Everywhere holds layers) :
    Everywhere holds (allInWritingOrder layers) := by
  cases layers with
  | nil => trivial
  | cons layer rest =>
    exact ⟨within_inWritingOrder each here.1, everywhere_allInWritingOrder each here.2⟩

end

end Layer

/-- A schedule in writing order is written as the same circuit. -/
theorem Schedule.toCircuit_inWritingOrder {schedule : Schedule} {circuit : Circuit}
    (parities : Layer.Everywhere Layer.HoldsParities schedule)
    (written : schedule.toCircuit = .ok circuit) :
    schedule.inWritingOrder.toCircuit = .ok circuit := by
  obtain ⟨writable, rfl⟩ := (toCircuit_eq_ok_iff parities).mp written
  have kept : Layer.Everywhere Layer.HoldsParities schedule.inWritingOrder :=
    Layer.everywhere_allInWritingOrder (fun layer _ here => by cases layer <;> exact here) parities
  refine (toCircuit_eq_ok_iff kept).mpr ⟨?_, ?_⟩
  · refine Layer.everywhere_allInWritingOrder (fun layer flat here => ?_) writable
    rwa [Layer.Writable, Layer.pieces_inWritingOrder flat]
  · exact (Layer.operationsAll_allInWritingOrder false schedule).symm

end StabilizerLayers
