import StabilizerLayers.Proofs.Schedule.Entries

/-!
# Clean-ups add no work

A clean-up makes a schedule no longer, with loop bodies counted once, and touches no qubit
that the schedule does not touch. Most of them only leave layers out or make one layer of
two; what has to be seen is that no rule for one layer or two neighbours brings in a
layer or a qubit. Z-basis forms and rolling do bring in layers, but these rotate qubits
that are touched already.
-/

namespace StabilizerLayers

namespace RotationLayer

variable {layer next : RotationLayer} {id : Qubit}

/-- A layer touches the qubits that it does not leave in place. -/
theorem mem_touched_iff : id ∈ layer.touched ↔ layer.get id ≠ .identity := by
  rw [touched, QubitMap.keysWhere, ← QubitMap.contains_eq_true_iff, QubitMap.contains,
    QubitMap.get?_filter, get]
  cases layer.rotations.get? id with
  | none => simp
  | some rotation => simp [Option.filter]

/-- Two layers in a row touch what one of them touches. -/
theorem mem_touched_of_followedBy (touched : id ∈ (layer.followedBy next).touched) :
    id ∈ layer.touched ∨ id ∈ next.touched := by
  simp only [mem_touched_iff, get_followedBy] at *
  by_contra neither
  obtain ⟨here, there⟩ : layer.get id = .identity ∧ next.get id = .identity := by
    simpa using neither
  exact touched (by simp [here, there])

/-- A repeated layer touches what the layer touches. -/
theorem mem_touched_of_pow {times : Nat} (touched : id ∈ (layer.pow times).touched) :
    id ∈ layer.touched := by
  simp only [mem_touched_iff, get_pow] at *
  intro still
  exact touched (by rw [still, Rotation.iterate_identity])

/-- The inverse layer touches what the layer touches. -/
theorem mem_touched_of_inverse (touched : id ∈ layer.inverse.touched) : id ∈ layer.touched := by
  simp only [mem_touched_iff, get_inverse] at *
  intro still
  exact touched (by rw [still]; rfl)

/-- A layer without some qubits touches those of the layer that are left. -/
theorem mem_touched_without {ids : List Qubit} :
    id ∈ (layer.without ids).touched ↔ id ∈ layer.touched ∧ id ∉ ids := by
  simp only [mem_touched_iff, get_without, List.contains_eq_mem, decide_eq_true_eq]
  by_cases listed : id ∈ ids <;> simp [listed]

/-- Rotations one after the other touch no qubit that is not among theirs. -/
theorem get_appendAll_of_not_mem {entries : List (Qubit × Rotation)}
    (apart : id ∉ entries.map Prod.fst) : (layer.appendAll entries).get id = layer.get id := by
  induction entries generalizing layer with
  | nil => rfl
  | cons head rest inductionHypothesis =>
    obtain ⟨different, later⟩ : id ≠ head.1 ∧ id ∉ rest.map Prod.fst := by simpa using apart
    rw [appendAll, inductionHypothesis later, get_append, if_neg different]

/-- The layer of a list touches qubits of the list. -/
theorem mem_of_mem_touched_ofList {entries : List (Qubit × Rotation)}
    (touched : id ∈ (ofList entries).touched) : id ∈ entries.map Prod.fst := by
  by_contra apart
  rw [mem_touched_iff, ofList, get_appendAll_of_not_mem apart] at touched
  exact touched rfl

end RotationLayer

namespace Layer

/-! ### Qubits and sizes of layers -/

/-- Layers touch what one of them touches. -/
theorem mem_touchedAll_iff {layers : List Layer} {id : Qubit} :
    id ∈ touchedAll layers ↔ ∃ layer ∈ layers, id ∈ layer.touched := by
  induction layers with
  | nil => simp [touchedAll]
  | cons layer rest inductionHypothesis => simp [touchedAll, inductionHypothesis]

/-- Two parts touch what one of them touches. -/
@[simp]
theorem touchedAll_append (first second : List Layer) :
    touchedAll (first ++ second) = touchedAll first ++ touchedAll second := by
  induction first with
  | nil => rfl
  | cons layer rest inductionHypothesis => simp [touchedAll, inductionHypothesis]

/-- The sizes of two parts add up. -/
@[simp]
theorem sizeAll_append (first second : List Layer) :
    sizeAll (first ++ second) = sizeAll first + sizeAll second := by
  induction first with
  | nil => simp [sizeAll]
  | cons layer rest inductionHypothesis => simp [sizeAll, inductionHypothesis, Nat.add_assoc]

/-- A layer counts. -/
theorem size_pos (layer : Layer) : 0 < layer.size := by
  cases layer <;> simp [size]

/-- A layer that is no loop counts once. -/
theorem size_of_flat {layer : Layer} (flat : layer.isLoop = false) : layer.size = 1 := by
  cases layer with
  | loop _ _ => cases flat
  | reset _ | measure _ | interact _ | interactSwap _ | swap _ | iswap _ | sqrtProduct _
  | feedback _ | rotation _ | product _ | parity _ | qubitCoords _ | shiftCoords _ | empty =>
    simp [size]

/-- Leaving layers out makes them no more. -/
theorem sizeAll_le_of_sublist {before after : List Layer} (fewer : after.Sublist before) :
    sizeAll after ≤ sizeAll before := by
  induction fewer with
  | slnil => exact Nat.le_refl _
  | cons layer _ inductionHypothesis =>
    simp only [sizeAll]
    omega
  | cons_cons layer _ inductionHypothesis =>
    simp only [sizeAll]
    omega

/-- Leaving a layer out makes layers fewer. -/
theorem sizeAll_filter_lt {keep : Layer → Bool} {layers : List Layer} {layer : Layer}
    (listed : layer ∈ layers) (dropped : keep layer = false) :
    sizeAll (layers.filter keep) < sizeAll layers := by
  induction layers with
  | nil => cases listed
  | cons first rest inductionHypothesis =>
    rcases List.mem_cons.mp listed with rfl | later
    · have counted := layer.size_pos
      have noMore := sizeAll_le_of_sublist (List.filter_sublist (p := keep) (l := rest))
      rw [List.filter_cons_of_neg (by simp [dropped]), sizeAll]
      omega
    · have fewer := inductionHypothesis later
      rw [List.filter_cons]
      split <;> simp only [sizeAll] <;> omega

/-- Rotations make one layer at most. -/
theorem sizeAll_ofRotations_le (rotations : RotationLayer) :
    sizeAll (ofRotations rotations) ≤ 1 := by
  fun_cases ofRotations rotations with
  | case1 => simp [sizeAll]
  | case2 => simp [sizeAll, size]

/-- The layer that rotations make touches what they touch. -/
theorem touchedAll_ofRotations_subset (rotations : RotationLayer) :
    touchedAll (ofRotations rotations) ⊆ rotations.touched := by
  simp only [ofRotations]
  split
  · exact List.nil_subset _
  · intro id member
    simpa [touchedAll, touched, RotationLayer.mem_touched_iff] using member

/-- A layer that two others make touches what one of them touches. -/
theorem mem_touched_of_absorb? {first second both : Layer} {id : Qubit}
    (found : first.absorb? second = some both) (member : id ∈ both.touched) :
    id ∈ first.touched ∨ id ∈ second.touched := by
  cases absorbs_of_absorb? found with
  | reset | qubitCoords =>
    obtain ⟨entry, listed, rfl⟩ := List.mem_map.mp member
    rcases QubitMap.mem_insertAll listed with here | there
    · exact .inl (List.mem_map_of_mem here)
    · exact .inr (List.mem_map_of_mem there)
  | rotation => exact RotationLayer.mem_touched_of_followedBy member
  | measure | interact | interactSwap | swap | iswap | sqrtProduct | feedback | product | parity =>
    simpa [touched, parityQubits] using member
  | shiftCoords => cases member

end Layer

/-! ### Changes that add no work -/

/-- Whether layers touch no qubit that others do not touch. -/
def TouchesNoMore (before after : List Layer) : Prop :=
  Layer.touchedAll after ⊆ Layer.touchedAll before

/-- Whether layers are no more than others, and touch no qubit that these do not touch. -/
structure AddsNoWork (before after : List Layer) : Prop where
  size : Layer.sizeAll after ≤ Layer.sizeAll before
  touched : TouchesNoMore before after

/-- Leaving layers out touches no more. -/
theorem TouchesNoMore.of_subset {before after : List Layer}
    (listed : ∀ layer ∈ after, layer ∈ before) : TouchesNoMore before after := by
  intro id member
  obtain ⟨layer, inAfter, touched⟩ := Layer.mem_touchedAll_iff.mp member
  exact Layer.mem_touchedAll_iff.mpr ⟨layer, listed layer inAfter, touched⟩

/-- What touches no more in its parts touches no more as a whole. -/
theorem TouchesNoMore.compatible : Compatible TouchesNoMore where
  refl _ := List.Subset.refl _
  trans left right := List.Subset.trans right left
  append left right := by
    rw [TouchesNoMore, Layer.touchedAll_append, Layer.touchedAll_append]
    exact List.append_subset.mpr ⟨List.subset_append_of_subset_left _ left,
      List.subset_append_of_subset_right _ right⟩
  loop repetitions first second inner := by
    simpa [TouchesNoMore, Layer.touchedAll, Layer.touched] using inner

namespace AddsNoWork

/-- What adds no work in its parts adds none as a whole. -/
protected theorem compatible : Compatible AddsNoWork where
  refl layers := ⟨Nat.le_refl _, TouchesNoMore.compatible.refl layers⟩
  trans left right :=
    ⟨Nat.le_trans right.size left.size, TouchesNoMore.compatible.trans left.touched right.touched⟩
  append left right := by
    refine ⟨?_, TouchesNoMore.compatible.append left.touched right.touched⟩
    rw [Layer.sizeAll_append, Layer.sizeAll_append]
    exact Nat.add_le_add left.size right.size
  loop repetitions first second inner := by
    refine ⟨?_, TouchesNoMore.compatible.loop repetitions inner.touched⟩
    have body := inner.size
    simp only [Layer.sizeAll, Layer.size]
    omega

/-- Leaving layers out adds no work. -/
theorem of_sublist {before after : List Layer} (fewer : after.Sublist before) :
    AddsNoWork before after where
  size := Layer.sizeAll_le_of_sublist fewer
  touched := .of_subset fun _ listed => fewer.subset listed

/-! ### One layer and two neighbours -/

/-- Layers in another order are as much work. -/
theorem swap (first second : Layer) : AddsNoWork [first, second] [second, first] := by
  constructor
  · simp only [Layer.sizeAll]
    omega
  · intro id member
    simpa [Layer.touchedAll, or_comm] using member

/-- A layer in the place of another adds no work if it touches what that one touches. -/
theorem single {layer other : Layer} (flat : other.isLoop = false)
    (touched : other.touched ⊆ layer.touched) : AddsNoWork [layer] [other] := by
  constructor
  · have counted := layer.size_pos
    simp only [Layer.sizeAll, Layer.size_of_flat flat]
    omega
  · simpa [TouchesNoMore, Layer.touchedAll] using touched

/-- One layer in the place of two adds no work if it touches what one of them touches. -/
theorem of_either {first second both : Layer} (flat : both.isLoop = false)
    (either : ∀ id ∈ both.touched, id ∈ first.touched ∨ id ∈ second.touched) :
    AddsNoWork [first, second] [both] := by
  constructor
  · have counted := first.size_pos
    simp only [Layer.sizeAll, Layer.size_of_flat flat]
    omega
  · intro id member
    simpa [Layer.touchedAll] using either id (by simpa [Layer.touchedAll] using member)

/-- Rotations add no work to a layer in whose place they stand. -/
theorem ofRotations {layer : Layer} {rotations : RotationLayer}
    (touched : rotations.touched ⊆ layer.touched) :
    AddsNoWork [layer] (Layer.ofRotations rotations) := by
  constructor
  · have counted := layer.size_pos
    have single := Layer.sizeAll_ofRotations_le rotations
    simp only [Layer.sizeAll]
    omega
  · intro id member
    simpa [Layer.touchedAll] using
      touched (Layer.touchedAll_ofRotations_subset rotations member)

/-- Merging two layers into one adds no work. -/
theorem absorb? {first second both : Layer} (found : first.absorb? second = some both) :
    AddsNoWork [first, second] [both] := by
  obtain ⟨-, -, flat⟩ := (Layer.absorbs_of_absorb? found).flat
  exact of_either flat fun id => Layer.mem_touched_of_absorb? found

/-- What two neighbours come to is no more work. -/
theorem alongside (layer next : Layer) : AddsNoWork [layer, next] (layer.alongside next) := by
  have compatible : Compatible AddsNoWork := AddsNoWork.compatible
  fun_cases Layer.alongside layer next with
  | case1 first second =>
    have joint : AddsNoWork [.rotation first, .rotation second]
        [.rotation (first.followedBy second)] := absorb? rfl
    exact compatible.trans joint (ofRotations (List.Subset.refl _))
  | case2 rotations targets =>
    refine compatible.append (ofRotations ?_) (compatible.refl [.reset targets])
    intro id member
    exact (RotationLayer.mem_touched_without.mp member).1
  -- Feedback is turned entry by entry and stays on its qubits.
  | case3 rotations entries =>
    have turned : AddsNoWork [.feedback entries]
        [.feedback (Layer.feedbackBefore rotations entries)] := by
      refine single rfl fun id member => ?_
      simpa [Layer.touched, Layer.feedbackBefore] using member
    exact compatible.trans (swap _ _) (compatible.append turned (compatible.refl _))
  | case4 | case6 | case7 => exact swap _ _
  | case5 | case8 | case10 | case12 | case15 => exact compatible.refl _
  | case9 couplings pairs same => exact of_either rfl fun id member => .inl member
  | case11 pairs couplings same =>
    refine of_either rfl fun id member => .inr ?_
    exact (Layer.perm_couplingsBeforeSwap couplings).subset member
  | case13 => exact of_sublist (List.nil_sublist _)
  | case14 first second pairs _ combined =>
    refine of_either rfl fun id member => ?_
    obtain ⟨pair, listed, here⟩ := List.mem_flatMap.mp member
    rcases Layer.mem_combineSwaps? combined listed with old | new
    · exact .inl (List.mem_flatMap.mpr ⟨pair, old, here⟩)
    · exact .inr (List.mem_flatMap.mpr ⟨pair, new, here⟩)
  | case16 layer next =>
    rw [Layer.merged]
    split
    · rename_i both found
      exact absorb? found
    · exact compatible.refl _

/-- What a single layer comes to is no more work. -/
theorem alone (layer : Layer) : AddsNoWork [layer] layer.alone := by
  have compatible : Compatible AddsNoWork := AddsNoWork.compatible
  fun_cases Layer.alone layer with
  | case1 rotations => exact ofRotations (List.Subset.refl _)
  | case2 repetitions body =>
    have inlined : AddsNoWork [.loop repetitions body] body := by
      constructor
      · simp [Layer.sizeAll, Layer.size]
      · simp [TouchesNoMore, Layer.touchedAll, Layer.touched]
    fun_cases Layer.unloop repetitions body with
    | case1 => exact of_sublist (List.nil_sublist _)
    | case2 => exact inlined
    | case3 _ _ rotations =>
      exact compatible.trans inlined (ofRotations fun id => RotationLayer.mem_touched_of_pow)
    | case4 => exact compatible.refl _
  | case3 => exact of_sublist (List.nil_sublist _)
  | case4 => exact compatible.refl _

/-! ### Clean-ups -/

/-- A sweep adds no work. -/
theorem sweep (schedule : Schedule) : AddsNoWork schedule schedule.sweep :=
  AddsNoWork.compatible.sweep alone alongside schedule

/-- Dropping idle rotations adds no work. -/
theorem withoutIdleRotations (schedule : Schedule) :
    AddsNoWork schedule schedule.withoutIdleRotations := by
  refine AddsNoWork.compatible.everyLevel ?_ schedule
  intro layers
  exact of_sublist List.filter_sublist

/-- Merging rotations adds no work. -/
theorem mergeRotations (schedule : Schedule) : AddsNoWork schedule schedule.mergeRotations := by
  refine AddsNoWork.compatible.everyLevel (AddsNoWork.compatible.mergeLevel ?_ ?_ ?_) schedule
  · intro earlier later
    exact absorb? rfl
  · intro rotations _
    exact of_sublist (List.nil_sublist _)
  · intro layer later _ _ _
    exact swap _ _

/-- Dropping the rotations of one level that resets forget adds no work. -/
theorem beforeResetsLevel (layers : List Layer) :
    AddsNoWork layers (Schedule.beforeResetsLevel layers) := by
  refine AddsNoWork.compatible.forgetBeforeResets ?_ layers
  intro resetNext layer
  fun_cases Schedule.forgetRotations resetNext layer with
  | case1 => exact of_sublist (List.nil_sublist _)
  | case2 rotations =>
    refine single rfl fun id member => ?_
    exact (RotationLayer.mem_touched_without.mp member).1
  | case3 => exact AddsNoWork.compatible.refl _

/-- Removal of the tail adds no work. -/
theorem withoutTail (schedule : Schedule) : AddsNoWork schedule schedule.withoutTail := by
  obtain ⟨start, tail, whole, dropped, -⟩ := Schedule.withoutTail_parts schedule
  rw [dropped]
  nth_rewrite 1 [whole]
  exact of_sublist (List.Sublist.append_left List.filter_sublist start)

/-- Declaring coordinates at the start adds no work: where something is declared there, at
    least one declaration has gone. -/
theorem hoistCoords (schedule : Schedule) : AddsNoWork schedule schedule.hoistCoords := by
  have remaining : AddsNoWork schedule (schedule.filter fun layer => !layer.isQubitCoords) :=
    of_sublist List.filter_sublist
  have inLayer : ∀ entry ∈ Schedule.declaredCoords [] schedule,
      ∃ coordinates, .qubitCoords coordinates ∈ schedule ∧ entry.1 ∈ coordinates.keys := by
    intro entry declared
    obtain ⟨coordinates, shift, listed, moved⟩ := Schedule.exists_of_mem_declaredCoords declared
    refine ⟨coordinates, listed, ?_⟩
    rw [← QubitMap.keys_mapValues coordinates]
    exact List.mem_map_of_mem moved
  rw [Schedule.hoistCoords]
  cases found : Schedule.declaredCoords [] schedule with
  | nil => exact remaining
  | cons first others =>
    rw [found] at inLayer
    constructor
    · obtain ⟨coordinates, listed, -⟩ := inLayer first (.head _)
      have fewer : Layer.sizeAll (schedule.filter fun layer => !layer.isQubitCoords) <
          Layer.sizeAll schedule := Layer.sizeAll_filter_lt listed rfl
      simp only [Layer.sizeAll, Layer.size]
      omega
    · refine List.append_subset.mpr ⟨?_, remaining.touched⟩
      intro id member
      obtain ⟨entry, inMap, rfl⟩ := List.mem_map.mp member
      have declared := (QubitMap.mem_insertAll inMap).resolve_left List.not_mem_nil
      obtain ⟨coordinates, listed, key⟩ := inLayer entry declared
      exact Layer.mem_touchedAll_iff.mpr ⟨_, listed, key⟩

end AddsNoWork

/-! ### Z-basis forms and rolling -/

namespace TouchesNoMore

/-- A layer between rotations touches no more than another on the same qubits, if the
    rotations do not. -/
theorem between {layer inner : Layer} {before after : RotationLayer}
    (turned : before.touched ⊆ layer.touched) (same : inner.touched = layer.touched)
    (turnedBack : after.touched ⊆ layer.touched) :
    TouchesNoMore [layer] (Layer.between before inner after) := by
  have start := List.Subset.trans (Layer.touchedAll_ofRotations_subset before) turned
  have rest := List.Subset.trans (Layer.touchedAll_ofRotations_subset after) turnedBack
  simpa [TouchesNoMore, Layer.between, Layer.touchedAll, same] using And.intro start rest

/-- A layer between rotations of its qubits and their inverse touches no more than the
    layer in whose place it stands. -/
theorem conjugated {layer inner : Layer} {rotations : List (Qubit × Rotation)}
    (turned : rotations.map Prod.fst = layer.touched) (same : inner.touched = layer.touched) :
    TouchesNoMore [layer] (Layer.conjugated rotations inner) := by
  have started : (RotationLayer.ofList rotations).touched ⊆ layer.touched := by
    intro id member
    exact turned ▸ RotationLayer.mem_of_mem_touched_ofList member
  refine between started same fun id member => ?_
  exact started (RotationLayer.mem_touched_of_inverse member)

/-- Couplings and exchanges along Z touch no more than those along other axes. -/
theorem interactSwap (couplings : List Coupling) :
    TouchesNoMore [.interactSwap couplings]
      (Layer.between (.ofList (couplings.flatMap Layer.couplingRotations))
        (.interactSwap (couplings.map Coupling.toZ))
        (.ofList (couplings.flatMap Layer.crossedRotations))) := by
  refine between ?_ (List.flatMap_map ..) ?_
  · intro id member
    have listed := RotationLayer.mem_of_mem_touched_ofList member
    rwa [List.map_flatMap] at listed
  · intro id member
    have listed := RotationLayer.mem_of_mem_touched_ofList member
    rwa [List.map_flatMap] at listed

/-- The Z-basis form of a layer touches no more than the layer. -/
theorem zForm (layer : Layer) : TouchesNoMore [layer] layer.zForm := by
  fun_cases Layer.zForm layer with
  | case1 | case7 => exact TouchesNoMore.compatible.refl _
  | case2 targets => exact conjugated List.map_map List.map_map
  | case3 targets => exact conjugated List.map_map List.map_map
  | case4 couplings => exact conjugated List.map_flatMap (List.flatMap_map ..)
  | case5 couplings => exact interactSwap couplings
  | case6 pairs => exact conjugated List.map_flatMap (List.flatMap_map ..)

/-- A loop with its final rotation rolled out touches no more than the loop. -/
theorem rolled (repetitions : UInt64) (body : List Layer) :
    TouchesNoMore [.loop repetitions body] (Schedule.rolled repetitions body) := by
  fun_cases Schedule.rolled repetitions body with
  | case1 | case2 => exact TouchesNoMore.compatible.refl _
  | case3 before rotation after found moved =>
    obtain ⟨whole, -⟩ := Schedule.finalRotation?_eq_some found
    have inBody : ∀ layer ∈ Layer.rotation rotation :: before ++ after, layer ∈ body := by
      intro layer listed
      rw [whole]
      simpa [or_left_comm] using listed
    have turned : rotation.touched ⊆ Layer.touchedAll body := by
      intro id member
      exact Layer.mem_touchedAll_iff.mpr ⟨_, inBody _ (.head _), member⟩
    have inMoved : TouchesNoMore body moved :=
      TouchesNoMore.compatible.trans (of_subset inBody) (AddsNoWork.sweep _).touched
    have turnedBack : rotation.inverse.touched ⊆ Layer.touchedAll body := by
      intro id member
      exact turned (RotationLayer.mem_touched_of_inverse member)
    simpa [TouchesNoMore, Layer.touchedAll, Layer.touched] using ⟨turnedBack, inMoved, turned⟩

/-- Rolling a layer touches no more than the layer. -/
theorem rollLayer (layer : Layer) : TouchesNoMore [layer] (Schedule.rollLayer layer) := by
  cases layer with
  | loop repetitions body =>
    have swept := TouchesNoMore.compatible.loop repetitions (AddsNoWork.sweep body).touched
    exact TouchesNoMore.compatible.trans swept (rolled repetitions (Schedule.sweep body))
  | reset _ | measure _ | interact _ | interactSwap _ | swap _ | iswap _ | sqrtProduct _
  | feedback _ | rotation _ | product _ | parity _ | qubitCoords _ | shiftCoords _ | empty =>
    exact TouchesNoMore.compatible.refl _

end TouchesNoMore

namespace Schedule

/-- The clean-ups, each told for a schedule of any origin. -/
def cleanups : List (Schedule → Schedule) :=
  [hoistCoords, sweep, withoutIdleRotations, mergeRotations, withoutRotationsBeforeResets,
    withoutTail]

/-- A clean-up adds no work. -/
theorem addsNoWork_of_mem_cleanups {cleanup : Schedule → Schedule} (listed : cleanup ∈ cleanups)
    (schedule : Schedule) : AddsNoWork schedule (cleanup schedule) := by
  simp only [cleanups, List.mem_cons, List.not_mem_nil, or_false] at listed
  rcases listed with rfl | rfl | rfl | rfl | rfl | rfl
  · exact .hoistCoords schedule
  · exact .sweep schedule
  · exact .withoutIdleRotations schedule
  · exact .mergeRotations schedule
  · exact AddsNoWork.compatible.everyLevel .beforeResetsLevel schedule
  · exact .withoutTail schedule

/-- Clean-ups make no schedule longer, with loop bodies counted once, and touch no qubit
    that the schedule does not touch. The Z-basis form of a schedule and the schedule with
    its loops rolled may be longer, but touch no more qubits either. -/
theorem cleanups_bounded :
    (∀ cleanup ∈ cleanups, ∀ schedule : Schedule,
      (cleanup schedule).layerCount ≤ schedule.layerCount ∧
        (cleanup schedule).touched ⊆ schedule.touched) ∧
    ∀ schedule : Schedule, schedule.zForm.touched ⊆ schedule.touched ∧
      schedule.rollLoops.touched ⊆ schedule.touched := by
  have compatible : Compatible TouchesNoMore := TouchesNoMore.compatible
  constructor
  · intro cleanup listed schedule
    obtain ⟨size, touched⟩ := addsNoWork_of_mem_cleanups listed schedule
    exact ⟨size, touched⟩
  · intro schedule
    constructor
    · exact compatible.everyLevel (compatible.flatMap TouchesNoMore.zForm) schedule
    · exact compatible.everyLevel (compatible.flatMap TouchesNoMore.rollLayer) schedule

/-- A schedule that every clean-up makes shorter, with a loop from which a rotation can be
    rolled and a measurement along another axis than Z. -/
def busySample : Schedule :=
  [.swap [(0, 1)], .swap [(0, 1)], .qubitCoords (.ofList [(0, []), (2, [])]),
    .loop 3 [.measure [⟨1, .X, false⟩], .rotation (.ofList [(1, .cycleXYZ)])],
    .qubitCoords (.ofList [(1, [])]), .rotation (.ofList [(2, .exchange .Y)]),
    .measure [⟨1, .Z, true⟩], .rotation (.ofList [(2, .cycleZYX)]),
    .reset (.ofList [(2, .Z)]), .rotation .empty]

/-- Every clean-up takes at least one of the twelve layers away and touches no new qubit. -/
theorem cleanups_bounded_sample :
    busySample.layerCount = 12 ∧
    cleanups.map (fun cleanup => (cleanup busySample).layerCount) = [11, 9, 11, 10, 9, 9] ∧
    mergeRotations ∈ cleanups ∧
    (mergeRotations busySample).layerCount ≤ busySample.layerCount ∧
    (mergeRotations busySample).touched ⊆ busySample.touched ∧
    busySample.zForm.touched ⊆ busySample.touched ∧
    busySample.rollLoops.touched ⊆ busySample.touched := by
  have listed : mergeRotations ∈ cleanups := by simp [cleanups]
  obtain ⟨shorter, inside⟩ := cleanups_bounded.1 mergeRotations listed busySample
  exact ⟨by decide +kernel, by decide +kernel, listed, shorter, inside,
    cleanups_bounded.2 busySample⟩

end Schedule

end StabilizerLayers
