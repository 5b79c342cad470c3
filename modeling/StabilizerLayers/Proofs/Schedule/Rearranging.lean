import Mathlib.Data.List.Forall2
import StabilizerLayers.Proofs.Schedule.WritingOrder

/-!
# Rearranged pairs

Layers of pairs are rearranged by changing the order of the pairs and of the two operands
of each pair, with all that belongs to an operand. What is written stays the same, and the
reason is the same for all kinds of pairs: what is written of a pair is determined by the
key by which the pairs are sorted, and the key does not change when operands are exchanged.
-/

namespace StabilizerLayers

/-! ### Sorting -/

section Sorting

variable {α β : Type} {key : α → List Nat} {first second : List α}

/-- Sorting puts the same keys into the same order. -/
theorem map_key_sortByKey (perm : (first.map key).Perm (second.map key)) :
    (sortByKey key first).map key = (sortByKey key second).map key := by
  have ascending (entries : List α) : ((sortByKey key entries).map key).SortedLE :=
    (List.pairwise_map.mpr (pairwise_sortByKey key entries)).sortedLE
  have keys (entries : List α) : ((sortByKey key entries).map key).Perm (entries.map key) :=
    (sortByKey_perm key entries).map key
  have same := (keys first).trans (perm.trans (keys second).symm)
  exact same.eq_of_sortedLE (ascending first) (ascending second)

/-- Two lists look alike entry by entry if they look alike as a whole. -/
theorem forall₂_iff_map_eq {view : α → β} :
    List.Forall₂ (fun one other => view one = view other) first second ↔
      first.map view = second.map view := by
  rw [← List.forall₂_eq_eq_eq, List.forall₂_map_left_iff, List.forall₂_map_right_iff]

/-- What keys determine is the same in writing order if the keys are the same. -/
theorem map_sortByKey {write : α → β}
    (determined : ∀ one other, key one = key other → write one = write other)
    (perm : (first.map key).Perm (second.map key)) :
    (sortByKey key first).map write = (sortByKey key second).map write := by
  have alike := forall₂_iff_map_eq.mpr (map_key_sortByKey perm)
  exact forall₂_iff_map_eq.mp (alike.imp determined)

/-- Entries that are told apart by their keys have one order. -/
theorem sortByKey_of_perm (injective : ∀ one other, key one = key other → one = other)
    (perm : first.Perm second) : sortByKey key first = sortByKey key second := by
  have same : (sortByKey key first).map id = (sortByKey key second).map id :=
    map_sortByKey injective (perm.map key)
  rwa [List.map_id, List.map_id] at same

end Sorting

/-! ### Rearranging -/

/-- Whether a list has the entries of another one in some order, each as it was or turned. -/
def Rearranged {α : Type} (turn : α → α) (first second : List α) : Prop :=
  ∃ middle, first.Perm middle ∧
    List.Forall₂ (fun old new => new = old ∨ new = turn old) middle second

/-- What turning an entry does not change is the same after rearranging, up to order. -/
theorem Rearranged.perm_map {α β : Type} {turn : α → α} {first second : List α}
    (rearranged : Rearranged turn first second) {view : α → β}
    (same : ∀ entry, view (turn entry) = view entry) :
    (first.map view).Perm (second.map view) := by
  obtain ⟨middle, perm, turned⟩ := rearranged
  have viewed : middle.map view = second.map view := by
    refine forall₂_iff_map_eq.mp (turned.imp fun old new choice => ?_)
    rcases choice with rfl | rfl
    · rfl
    · exact (same old).symm
  exact viewed ▸ perm.map view

/-- Two qubits are put in order whichever comes first. -/
theorem smallerFirst_comm (first second : Qubit) :
    smallerFirst second first = smallerFirst first second := by
  rw [smallerFirst, smallerFirst]
  by_cases less : second < first
  · rw [if_pos less, if_neg (UInt32.lt_asymm less)]
  · rw [if_neg less]
    split
    · rfl
    · rename_i notLess
      rw [UInt32.le_antisymm (UInt32.not_lt.mp less) (UInt32.not_lt.mp notLess)]

/-- Pairs are told apart by their keys. -/
theorem pairKey_injective {one other : Qubit × Qubit} (same : pairKey one = pairKey other) :
    one = other := by
  simp only [pairKey, List.cons.injEq, and_true, UInt32.toNat_inj] at same
  exact Prod.ext same.1 same.2

namespace Coupling

/-- Operands that are in order both ways are the same. -/
theorem reversed_eq_of_not_isBackward {coupling : Coupling}
    (right : coupling.isBackward = false) (other : coupling.reversed.isBackward = false) :
    coupling.reversed = coupling := by
  obtain ⟨⟨id, basis⟩, otherId, otherBasis⟩ := coupling
  rw [isBackward, Bool.or_eq_false_iff, Bool.and_eq_false_iff, beq_eq_false_iff_ne] at right other
  have ranks : basis.rank = otherBasis.rank :=
    Nat.le_antisymm (Nat.not_lt.mp (of_decide_eq_false right.1))
      (Nat.not_lt.mp (of_decide_eq_false other.1))
  have notBelow := of_decide_eq_false (right.2.resolve_left (· ranks))
  have notAbove := of_decide_eq_false (other.2.resolve_left (· ranks.symm))
  have ids : id = otherId := UInt32.le_antisymm (UInt32.not_lt.mp notBelow)
    (UInt32.not_lt.mp notAbove)
  rw [reversed, ids, Basis.rank_injective ranks]

/-- The order of the operands does not change the writing order. -/
theorem canonical_reversed (coupling : Coupling) :
    coupling.reversed.canonical = coupling.canonical := by
  cases here : coupling.isBackward with
  | true =>
    rw [canonical, canonical, isBackward_reversed here, here]
    rfl
  | false =>
    cases there : coupling.reversed.isBackward with
    | true =>
      rw [canonical, canonical, here, there]
      rfl
    | false => rw [reversed_eq_of_not_isBackward here there]

/-- Couplings are told apart by their keys. -/
theorem key_injective {one other : Coupling} (same : one.key = other.key) : one = other := by
  obtain ⟨⟨oneId, oneBasis⟩, oneOtherId, oneOtherBasis⟩ := one
  obtain ⟨⟨id, basis⟩, otherId, otherBasis⟩ := other
  simp only [key, List.cons.injEq, and_true, UInt32.toNat_inj] at same
  obtain ⟨firstRank, secondRank, rfl, rfl⟩ := same
  rw [Basis.rank_injective firstRank, Basis.rank_injective secondRank]

/-- Rearranged couplings are the same in writing order. -/
theorem sorted_of_rearranged {first second : List Coupling}
    (rearranged : Rearranged reversed first second) : sorted first = sorted second :=
  sortByKey_of_perm (fun _ _ => key_injective) (rearranged.perm_map canonical_reversed)

end Coupling

namespace SqrtPair

/-- The same square root with its qubits exchanged. -/
def reversed (pair : SqrtPair) : SqrtPair :=
  { pair with first := pair.second, second := pair.first }

/-- The order of the qubits does not change the key. -/
theorem key_reversed (pair : SqrtPair) : pair.reversed.key = pair.key := by
  simp only [key, ordered, reversed, smallerFirst_comm]

/-- What is written of a square root is determined by its key. -/
theorem instruction_of_key (one other : SqrtPair) (same : one.key = other.key) :
    one.instruction = other.instruction := by
  have daggers : Function.Injective Bool.toNat := by decide
  simp only [key, List.cons.injEq, and_true, UInt32.toNat_inj] at same
  obtain ⟨rank, dagger, first, second⟩ := same
  rw [instruction, instruction, pairQubits, pairQubits, Basis.rank_injective rank,
    daggers dagger, first, second]

end SqrtPair

namespace Layer

/-- Whether two layers hold the same pairs, in some order of pairs and operands. Exchanges are
    built with the smaller qubit first. -/
inductive Rearranges : Layer → Layer → Prop where
  | interact {first second : List Coupling} (rearranged : Rearranged Coupling.reversed first second) :
      Rearranges (.interact first) (.interact second)
  | interactSwap {first second : List Coupling}
      (rearranged : Rearranged Coupling.reversed first second) :
      Rearranges (.interactSwap first) (.interactSwap second)
  | sqrtProduct {first second : List SqrtPair}
      (rearranged : Rearranged SqrtPair.reversed first second) :
      Rearranges (.sqrtProduct first) (.sqrtProduct second)
  | swap {first second : List (Qubit × Qubit)} (rearranged : Rearranged Prod.swap first second) :
      Rearranges (.swap (first.map fun pair => smallerFirst pair.1 pair.2))
        (.swap (second.map fun pair => smallerFirst pair.1 pair.2))
  | iswap {first second : List (Qubit × Qubit)} (rearranged : Rearranged Prod.swap first second) :
      Rearranges (.iswap (first.map fun pair => smallerFirst pair.1 pair.2))
        (.iswap (second.map fun pair => smallerFirst pair.1 pair.2))

/-- Rearranged exchanges are the same in writing order. -/
theorem sortedPairs_of_rearranged {first second : List (Qubit × Qubit)}
    (rearranged : Rearranged Prod.swap first second) :
    sortedPairs (first.map fun pair => smallerFirst pair.1 pair.2) =
      sortedPairs (second.map fun pair => smallerFirst pair.1 pair.2) := by
  have ordered (pair : Qubit × Qubit) :
      smallerFirst pair.swap.1 pair.swap.2 = smallerFirst pair.1 pair.2 :=
    smallerFirst_comm pair.1 pair.2
  exact sortByKey_of_perm (fun _ _ => pairKey_injective) (rearranged.perm_map ordered)

/-- Rearranged layers are written with the same instructions. -/
theorem Rearranges.pieces_eq {first second : Layer} (rearranges : first.Rearranges second) :
    first.pieces = second.pieces := by
  cases rearranges with
  | interact rearranged =>
    rw [pieces, pieces, Coupling.instructions, Coupling.instructions,
      Coupling.sorted_of_rearranged rearranged]
  | interactSwap rearranged =>
    rw [pieces, pieces, Coupling.swapInstructions, Coupling.swapInstructions,
      Coupling.sorted_of_rearranged rearranged]
  | sqrtProduct rearranged =>
    exact map_sortByKey SqrtPair.instruction_of_key (rearranged.perm_map SqrtPair.key_reversed)
  | swap rearranged | iswap rearranged =>
    rw [pieces, pieces, exchangeInstructions, exchangeInstructions,
      sortedPairs_of_rearranged rearranged]

end Layer

end StabilizerLayers
