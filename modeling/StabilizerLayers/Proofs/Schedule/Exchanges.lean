import StabilizerLayers.Proofs.Ordering
import StabilizerLayers.Proofs.Schedule.Merging

/-!
# Exchanges beside couplings and exchanges

Exchanges of distinct pairs can stand in any order, and so can the two qubits of
each. Exchanges of exactly the coupled pairs therefore join the couplings one by
one, and of two rounds of exchanges the pairs that occur in both cancel.
-/

namespace StabilizerLayers

/-- Exchanges of pairs one after the other. -/
def exchanges (pairs : List (Qubit × Qubit)) : List Action :=
  pairs.flatMap fun pair => [.exchange pair.1 pair.2]

/-- Exchanges of a layer. -/
theorem Layer.actions_swap (pairs : List (Qubit × Qubit)) :
    (Layer.swap pairs).actions = exchanges pairs := by
  rw [Layer.actions, exchanges, List.map_eq_flatMap]

/-- Two qubits, the smaller first, are the two qubits. -/
theorem perm_pairQubits_smallerFirst (first second : Qubit) :
    (pairQubits (smallerFirst first second)).Perm [first, second] := by
  rw [smallerFirst]
  split
  · exact .swap _ _ _
  · exact .refl _

/-- An operation on two qubits without order, with the smaller one first. -/
theorem Agrees.smallerFirst {act : Qubit → Qubit → Action}
    (comm : ∀ first second, Agrees [act second first] [act first second]) (first second : Qubit) :
    Agrees [act (smallerFirst first second).1 (smallerFirst first second).2]
      [act first second] := by
  rw [StabilizerLayers.smallerFirst]
  split
  · exact comm first second
  · exact .refl _

namespace Agrees

/-- Exchanges of distinct pairs are independent. -/
theorem independent_exchanges {pairs : List (Qubit × Qubit)}
    (once : (pairs.flatMap pairQubits).Nodup) :
    pairs.Pairwise fun pair other => ∀ action ∈ [Action.exchange pair.1 pair.2],
      ∀ next ∈ [Action.exchange other.1 other.2], Independent action next := by
  have within : ∀ pair : Qubit × Qubit, ∀ action ∈ [Action.exchange pair.1 pair.2],
      action.qubits ⊆ pairQubits pair := by
    intro pair action member
    obtain rfl := List.mem_singleton.mp member
    exact List.Subset.refl _
  refine pairwise_independent once within within ?_
  intro pair other action member next _
  obtain rfl := List.mem_singleton.mp member
  exact .inl rfl

/-- Exchanges of distinct pairs can stand in any order. -/
theorem exchanges_of_perm {pairs others : List (Qubit × Qubit)} (perm : pairs.Perm others)
    (once : (pairs.flatMap pairQubits).Nodup) : Agrees (exchanges pairs) (exchanges others) :=
  flatMap_of_perm perm (independent_exchanges once)

/-- A round of exchanges of distinct pairs undoes itself. -/
theorem exchanges_twice {pairs : List (Qubit × Qubit)} (once : (pairs.flatMap pairQubits).Nodup) :
    Agrees (exchanges pairs ++ exchanges pairs) [] := by
  have rounds : Agrees
      (pairs.flatMap fun pair => [.exchange pair.1 pair.2] ++ [.exchange pair.1 pair.2])
      (exchanges pairs ++ exchanges pairs) := flatMap_append (independent_exchanges once)
  have nothing : Agrees
      (pairs.flatMap fun pair => [.exchange pair.1 pair.2] ++ [.exchange pair.1 pair.2])
      (pairs.flatMap fun _ => []) :=
    flatMap fun pair _ => exchange_exchange pair.1 pair.2
  rw [List.flatMap_eq_nil_iff.mpr fun _ _ => rfl] at nothing
  exact rounds.symm.trans nothing

end Agrees

namespace Coupling

/-- The two qubits of a coupling in ascending order are its qubits. -/
theorem perm_pairQubits_pair (coupling : Coupling) :
    (pairQubits coupling.pair).Perm coupling.qubits :=
  perm_pairQubits_smallerFirst coupling.first.id coupling.second.id

/-- Couplings name the qubits of their pairs. -/
theorem perm_flatMap_pairQubits (couplings : List Coupling) :
    ((couplings.map pair).flatMap pairQubits).Perm (couplings.flatMap qubits) := by
  rw [List.flatMap_map]
  exact List.Perm.flatMap_left _ fun coupling _ => coupling.perm_pairQubits_pair

/-- Exchanges of exactly the coupled pairs, in the order of the couplings. -/
theorem agrees_exchanges {couplings : List Coupling} {pairs : List (Qubit × Qubit)}
    (same : samePairs couplings pairs = true) (once : (couplings.flatMap qubits).Nodup) :
    Agrees (exchanges pairs)
      (couplings.flatMap fun coupling => [.exchange coupling.first.id coupling.second.id]) := by
  have sorted : sortedPairs (couplings.map pair) = sortedPairs pairs := by
    simpa [samePairs] using same
  have perm : (couplings.map pair).Perm pairs :=
    ((sortByKey_perm pairKey _).symm.trans (.of_eq sorted)).trans (sortByKey_perm pairKey pairs)
  have ordered : Agrees (exchanges (couplings.map pair)) (exchanges pairs) :=
    Agrees.exchanges_of_perm perm ((perm_flatMap_pairQubits couplings).nodup_iff.mpr once)
  refine ordered.symm.trans ?_
  rw [exchanges, List.flatMap_map]
  exact Agrees.flatMap fun coupling _ =>
    Agrees.smallerFirst Agrees.exchange_comm coupling.first.id coupling.second.id

/-- What an entry of couplings does stays on its qubits. -/
theorem qubits_couple_subset (coupling : Coupling) :
    ∀ action ∈ [Action.couple coupling], action.qubits ⊆ coupling.qubits := by
  intro action member
  obtain rfl := List.mem_singleton.mp member
  exact List.Subset.refl _

/-- An exchange of coupled qubits stays on them. -/
theorem qubits_exchange_subset (coupling : Coupling) :
    ∀ action ∈ [Action.exchange coupling.first.id coupling.second.id],
      action.qubits ⊆ coupling.qubits := by
  intro action member
  obtain rfl := List.mem_singleton.mp member
  exact List.Subset.refl _

end Coupling

namespace Layer

/-- Exchanges of exactly the coupled pairs join the couplings before them. -/
theorem agrees_interact_swap {couplings : List Coupling} {pairs : List (Qubit × Qubit)}
    (same : Coupling.samePairs couplings pairs = true)
    (once : (couplings.flatMap Coupling.qubits).Nodup) :
    Agrees (interactSwap couplings).actions
      ((interact couplings).actions ++ (swap pairs).actions) := by
  have rounds := Agrees.flatMap_append
    (pairwise_independent once Coupling.qubits_exchange_subset Coupling.qubits_couple_subset
      fun _ _ _ made _ _ => .inl (by rw [List.mem_singleton.mp made]; rfl))
  have ordered := Coupling.agrees_exchanges same once
  rw [actions_swap, actions, actions, List.map_eq_flatMap]
  exact rounds.trans ((Agrees.refl _).append ordered.symm)

/-- Couplings before an exchange name the qubits of those after it. -/
theorem perm_couplingsBeforeSwap (couplings : List Coupling) :
    ((couplingsBeforeSwap couplings).flatMap Coupling.qubits).Perm
      (couplings.flatMap Coupling.qubits) := by
  rw [couplingsBeforeSwap, List.flatMap_map]
  exact List.Perm.flatMap_left _ fun coupling _ => .swap _ _ _

/-- Exchanges of exactly the coupled pairs join the couplings after them, which
    then act on the other qubit. -/
theorem agrees_swap_interact {couplings : List Coupling} {pairs : List (Qubit × Qubit)}
    (same : Coupling.samePairs couplings pairs = true)
    (once : (couplings.flatMap Coupling.qubits).Nodup) :
    Agrees (interactSwap (couplingsBeforeSwap couplings)).actions
      ((swap pairs).actions ++ (interact couplings).actions) := by
  have rounds := Agrees.flatMap_append
    (pairwise_independent once Coupling.qubits_couple_subset Coupling.qubits_exchange_subset
      fun _ _ _ made _ _ => .inl (by rw [List.mem_singleton.mp made]; rfl))
  have ordered := Coupling.agrees_exchanges same once
  rw [actions_swap, actions, actions, List.map_eq_flatMap, couplingsBeforeSwap, List.flatMap_map]
  refine .trans (.flatMap fun coupling _ => ?_) (rounds.trans (ordered.symm.append (.refl _)))
  have carried := Agrees.exchange_couple coupling.first coupling.second
  have flipped := (Agrees.refl
      [.couple ⟨⟨coupling.second.id, coupling.first.basis⟩,
        ⟨coupling.first.id, coupling.second.basis⟩⟩]).append
    (Agrees.exchange_comm coupling.first.id coupling.second.id)
  exact flipped.trans carried.symm

/-- Pairs on distinct qubits are distinct pairs. -/
theorem nodup_of_nodup_pairQubits {pairs : List (Qubit × Qubit)}
    (once : (pairs.flatMap pairQubits).Nodup) : pairs.Nodup := by
  refine (List.nodup_flatMap.mp once).2.imp fun {pair other} apart same => ?_
  subst same
  exact apart (List.mem_cons_self) (List.mem_cons_self)

/-- Some of the pairs on distinct qubits are on distinct qubits. -/
theorem nodup_pairQubits_filter {pairs : List (Qubit × Qubit)} (keep : Qubit × Qubit → Bool)
    (once : (pairs.flatMap pairQubits).Nodup) : ((pairs.filter keep).flatMap pairQubits).Nodup :=
  once.sublist (List.filter_sublist.flatMap pairQubits)

section

variable {first second cancelled : List (Qubit × Qubit)}
  (common : ∀ pair, pair ∈ cancelled ↔ pair ∈ second ∧ pair ∈ first)
  (firstOnce : (first.flatMap pairQubits).Nodup) (secondOnce : (second.flatMap pairQubits).Nodup)

include common firstOnce secondOnce

/-- Two rounds of exchanges without the pairs that are in both name each qubit
    once, if the other pairs of the second round are apart from the first. -/
theorem nodup_uncancelled
    (fits : ∀ pair ∈ second,
      pair ∈ first ∨ disjoint (pairQubits pair) (first.flatMap pairQubits) = true) :
    (((first ++ second).filter fun pair => !cancelled.contains pair).flatMap pairQubits).Nodup := by
  have separate : ((first.filter fun pair => !cancelled.contains pair).flatMap pairQubits).Disjoint
      ((second.filter fun pair => !cancelled.contains pair).flatMap pairQubits) := by
    intro id held joined
    obtain ⟨pair, kept, mine⟩ := List.mem_flatMap.mp joined
    obtain ⟨listed, fresh⟩ := List.mem_filter.mp kept
    have absent : pair ∉ first := fun also => by
      simp [(common pair).mpr ⟨listed, also⟩] at fresh
    have apart := (fits pair listed).resolve_left absent
    refine disjoint_eq_true_iff.mp apart id mine ?_
    obtain ⟨other, alsoKept, shared⟩ := List.mem_flatMap.mp held
    exact List.mem_flatMap.mpr ⟨other, (List.mem_filter.mp alsoKept).1, shared⟩
  rw [List.filter_append, List.flatMap_append]
  exact (nodup_pairQubits_filter _ firstOnce).append (nodup_pairQubits_filter _ secondOnce) separate

/-- Of two rounds of exchanges the pairs in both cancel. -/
theorem agrees_uncancelled :
    Agrees (exchanges ((first ++ second).filter fun pair => !cancelled.contains pair))
      (exchanges first ++ exchanges second) := by
  let kept := first.filter fun pair => !cancelled.contains pair
  let fresh := second.filter fun pair => !cancelled.contains pair
  let twice := second.filter fun pair => cancelled.contains pair
  have shared : (first.filter fun pair => cancelled.contains pair).Perm twice := by
    refine (List.perm_ext_iff_of_nodup ?_ ?_).mpr fun pair => ?_
    · exact (nodup_of_nodup_pairQubits firstOnce).filter _
    · exact (nodup_of_nodup_pairQubits secondOnce).filter _
    · simp only [twice, List.mem_filter, List.contains_iff_mem, common]
      tauto
  have firstPerm : first.Perm (kept ++ twice) :=
    ((List.filter_append_perm (fun pair => cancelled.contains pair) first).symm.trans
      List.perm_append_comm).trans (shared.append_left kept)
  have secondPerm : second.Perm (twice ++ fresh) :=
    (List.filter_append_perm (fun pair => cancelled.contains pair) second).symm
  have firstSplit := Agrees.exchanges_of_perm firstPerm firstOnce
  have secondSplit := Agrees.exchanges_of_perm secondPerm secondOnce
  have gone : Agrees (exchanges twice ++ exchanges twice) [] :=
    Agrees.exchanges_twice (nodup_pairQubits_filter _ secondOnce)
  have both := ((Agrees.refl (exchanges kept)).append gone).append (.refl (exchanges fresh))
  have whole := firstSplit.append secondSplit
  simp only [exchanges, List.flatMap_append, List.filter_append, List.append_assoc,
    List.nil_append] at both whole ⊢
  exact both.symm.trans whole.symm

end

/-- What two rounds of exchanges come to, if they combine: all pairs but those that are in
    both, where the other pairs of the second round are apart from the first. -/
theorem combineSwaps?_eq_some {first second pairs : List (Qubit × Qubit)}
    (combined : combineSwaps? first second = some pairs) :
    ∃ cancelled : List (Qubit × Qubit),
      (∀ pair, pair ∈ cancelled ↔ pair ∈ second ∧ pair ∈ first) ∧
      (∀ pair ∈ second,
        pair ∈ first ∨ disjoint (pairQubits pair) (first.flatMap pairQubits) = true) ∧
      pairs = (first ++ second).filter fun pair => !cancelled.contains pair := by
  rw [combineSwaps?] at combined
  split at combined
  · rename_i fits
    refine ⟨second.filter first.contains, by simp, fun pair listed => ?_,
      (Option.some.inj combined).symm⟩
    simpa using List.all_eq_true.mp fits pair listed
  · cases combined

section

variable {first second pairs : List (Qubit × Qubit)}
  (combined : combineSwaps? first second = some pairs)
  (firstOnce : (first.flatMap pairQubits).Nodup) (secondOnce : (second.flatMap pairQubits).Nodup)

include combined firstOnce secondOnce

/-- Two rounds of exchanges that combine come to a round that names no qubit twice. -/
theorem nodup_combineSwaps? : (pairs.flatMap pairQubits).Nodup := by
  obtain ⟨cancelled, common, fits, rfl⟩ := combineSwaps?_eq_some combined
  exact nodup_uncancelled common firstOnce secondOnce fits

/-- Two rounds of exchanges that combine come to one round. -/
theorem agrees_combineSwaps? :
    Agrees (swap pairs).actions ((swap first).actions ++ (swap second).actions) := by
  obtain ⟨cancelled, common, -, rfl⟩ := combineSwaps?_eq_some combined
  rw [actions_swap, actions_swap, actions_swap]
  exact agrees_uncancelled common firstOnce secondOnce

end

end Layer

end StabilizerLayers
