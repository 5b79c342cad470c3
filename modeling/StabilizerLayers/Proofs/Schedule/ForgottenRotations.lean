import StabilizerLayers.Proofs.Schedule.Workload

/-!
# Which rotations resets forget

A rotation of a qubit is forgotten if the first later layer of the same level that uses
the qubit is a reset, where rotations do not count as uses. The clean-up finds this out in
one walk from the end of a level, with a set of qubits that resets make larger and all
other layers make smaller. Here a schedule and what is left of it are related without the
walk, and the clean-up is shown to give exactly what is related.

A loop counts as a use of what its body touches. The clean-up looks at the body after it
has cleaned it up, and the relation looks at the body as it was. That is the same: a
rotation that is dropped leaves its qubit touched, by the reset that forgets it.
-/

namespace StabilizerLayers

namespace Layer

/-- Whether a layer is a rotation. -/
def isRotation : Layer → Bool
  | rotation _ => true
  | _ => false

end Layer

namespace Schedule

/-- The first layer other than a rotation that touches a qubit. -/
def firstUse? (id : Qubit) (layers : List Layer) : Option Layer :=
  layers.find? fun layer => !layer.isRotation && layer.touched.contains id

/-- Whether some layer other than a rotation touches a qubit, and the first such layer
    is a reset. -/
def ResetsFirst (id : Qubit) (layers : List Layer) : Prop :=
  ∃ targets, firstUse? id layers = some (.reset targets)

/-- Whether rotations hold exactly those entries of others whose qubits are not reset
    first by later layers. -/
def Survive (later : List Layer) (rotations left : RotationLayer) : Prop :=
  ∀ entry, entry ∈ left.rotations.entries ↔
    entry ∈ rotations.rotations.entries ∧ ¬ ResetsFirst entry.1 later

/-- What is left of a schedule if exactly the rotations that resets forget are dropped. -/
inductive Pruned : List Layer → List Layer → Prop where
  | nil : Pruned [] []
  /-- A loop stays, and its body is pruned on its own. -/
  | loop {repetitions : UInt64} {body prunedBody rest pruned : List Layer} :
    Pruned body prunedBody → Pruned rest pruned →
      Pruned (.loop repetitions body :: rest) (.loop repetitions prunedBody :: pruned)
  /-- Other layers than rotations stay. -/
  | other {layer : Layer} {rest pruned : List Layer} : layer.isLoop = false →
    layer.isRotation = false → Pruned rest pruned → Pruned (layer :: rest) (layer :: pruned)
  /-- A rotation layer stays with the entries that are left, if one of them really
      rotates. -/
  | rotation {rotations left : RotationLayer} {rest pruned : List Layer} :
    Survive rest rotations left → left.isVacuous = false → Pruned rest pruned →
      Pruned (.rotation rotations :: rest) (.rotation left :: pruned)
  /-- A rotation layer goes if no entry that is left really rotates. -/
  | idle {rotations left : RotationLayer} {rest pruned : List Layer} :
    Survive rest rotations left → left.isVacuous = true → Pruned rest pruned →
      Pruned (.rotation rotations :: rest) pruned

/-! ### The first use of a qubit -/

/-- The first layer is the first use of a qubit, or the first use comes later. -/
theorem resetsFirst_cons {id : Qubit} {layer : Layer} {rest : List Layer} :
    ResetsFirst id (layer :: rest) ↔
      if layer.isRotation = false ∧ id ∈ layer.touched then ∃ targets, layer = .reset targets
      else ResetsFirst id rest := by
  by_cases used : layer.isRotation = false ∧ id ∈ layer.touched
  · simp [ResetsFirst, firstUse?, used]
  · rw [if_neg used, ResetsFirst, firstUse?, List.find?_cons_of_neg (by simpa using used)]
    rfl

/-- A qubit that is reset first is touched. -/
theorem ResetsFirst.mem_touchedAll {id : Qubit} {layers : List Layer}
    (resets : ResetsFirst id layers) : id ∈ Layer.touchedAll layers := by
  obtain ⟨targets, found⟩ := resets
  have used := List.find?_some found
  have listed := List.mem_of_find?_eq_some found
  exact Layer.mem_touchedAll_iff.mpr ⟨_, listed, by simpa [Layer.isRotation] using used⟩

/-- The walk finds the qubits that are reset first. -/
theorem mem_forgetBeforeResets_iff {id : Qubit} {layers : List Layer} :
    id ∈ (forgetBeforeResets layers).1 ↔ ResetsFirst id layers := by
  induction layers with
  | nil => simp [forgetBeforeResets, ResetsFirst, firstUse?]
  | cons layer rest inductionHypothesis =>
    show id ∈ resetNextBefore (forgetBeforeResets rest).1 layer ↔ ResetsFirst id (layer :: rest)
    rw [resetsFirst_cons, ← inductionHypothesis]
    fun_cases resetNextBefore (forgetBeforeResets rest).1 layer with
    | case1 rotations => simp [Layer.isRotation]
    | case2 targets =>
      by_cases here : id ∈ targets.keys
      · simp [Layer.isRotation, Layer.touched, here]
      · simp [Layer.isRotation, Layer.touched, here]
    | case3 layer notRotation notReset =>
      have other : layer.isRotation = false := by
        cases layer <;> first | rfl | exact absurd rfl (notRotation _)
      have noReset : ¬ ∃ targets, layer = .reset targets := by
        rintro ⟨targets, rfl⟩
        exact notReset targets rfl
      by_cases touched : id ∈ layer.touched
      · simp [other, touched, noReset]
      · simp [touched]

/-! ### Loops -/

/-- A layer still touches a qubit that is not among those that are reset next. -/
theorem mem_touchedAll_forgetRotations {resetNext : List Qubit} {layer : Layer} {id : Qubit}
    (touched : id ∈ layer.touched) (apart : id ∉ resetNext) :
    id ∈ Layer.touchedAll (forgetRotations resetNext layer) := by
  fun_cases forgetRotations resetNext layer with
  | case1 rotations kept vacuous =>
    have turning : id ∈ kept.touched := RotationLayer.mem_touched_without.mpr ⟨touched, apart⟩
    exact absurd (RotationLayer.get_of_isVacuous vacuous id)
      (RotationLayer.mem_touched_iff.mp turning)
  | case2 rotations =>
    simpa [Layer.touchedAll, Layer.touched] using
      RotationLayer.mem_touched_without.mpr ⟨touched, apart⟩
  | case3 => simpa [Layer.touchedAll] using touched

/-- Dropping the rotations of one level that resets forget leaves all qubits touched. -/
theorem touchesNoMore_beforeResetsLevel (layers : List Layer) :
    TouchesNoMore (beforeResetsLevel layers) layers := by
  induction layers with
  | nil => exact TouchesNoMore.compatible.refl []
  | cons layer rest inductionHypothesis =>
    intro id member
    show id ∈ Layer.touchedAll
      (forgetRotations (forgetBeforeResets rest).1 layer ++ beforeResetsLevel rest)
    rw [Layer.touchedAll_append, List.mem_append]
    rcases List.mem_append.mp member with here | later
    · by_cases resets : ResetsFirst id rest
      · exact .inr (inductionHypothesis resets.mem_touchedAll)
      · exact .inl (mem_touchedAll_forgetRotations here (mem_forgetBeforeResets_iff.not.mpr resets))
    · exact .inr (inductionHypothesis later)

/-- A loop touches what it touches after the clean-up of its body. -/
theorem mem_touched_inBody {id : Qubit} (layer : Layer) :
    id ∈ (layer.inBody beforeResetsLevel).touched ↔ id ∈ layer.touched := by
  have compatible : Compatible TouchesNoMore := TouchesNoMore.compatible
  have fewer : TouchesNoMore [layer] [layer.inBody beforeResetsLevel] :=
    compatible.inBody (fun layers => (AddsNoWork.beforeResetsLevel layers).touched) layer
  have more : TouchesNoMore [layer.inBody beforeResetsLevel] [layer] :=
    compatible.reversed.inBody touchesNoMore_beforeResetsLevel layer
  simp only [TouchesNoMore, Layer.touchedAll, List.append_nil] at fewer more
  exact ⟨fun member => fewer member, fun member => more member⟩

/-- The clean-up of bodies changes no first uses. -/
theorem resetsFirst_inBodies {id : Qubit} {layers : List Layer} :
    ResetsFirst id (Layer.inBodies beforeResetsLevel layers) ↔ ResetsFirst id layers := by
  induction layers with
  | nil => exact Iff.rfl
  | cons layer rest inductionHypothesis =>
    have rotates : (layer.inBody beforeResetsLevel).isRotation = layer.isRotation := by
      cases layer <;> rfl
    have resets : (∃ targets, layer.inBody beforeResetsLevel = .reset targets) ↔
        ∃ targets, layer = .reset targets := by
      cases layer <;> simp [Layer.inBody]
    simp only [Layer.inBodies, resetsFirst_cons, rotates, resets, mem_touched_inBody,
      inductionHypothesis]

/-! ### What is left -/

/-- The entries that the clean-up leaves before some layers. -/
theorem survive_without (rotations : RotationLayer) (rest : List Layer) :
    Survive rest rotations
      (rotations.without (forgetBeforeResets (Layer.inBodies beforeResetsLevel rest)).1) := by
  intro entry
  rw [← resetsFirst_inBodies, ← mem_forgetBeforeResets_iff]
  simp [RotationLayer.without, QubitMap.without, QubitMap.filter]

/-- The clean-up leaves what the relation says. -/
theorem pruned_withoutRotationsBeforeResets (schedule : Schedule) :
    Pruned schedule schedule.withoutRotationsBeforeResets := by
  cases schedule with
  | nil => exact .nil
  | cons layer rest =>
    have later := pruned_withoutRotationsBeforeResets rest
    cases layer with
    | loop repetitions body => exact .loop (pruned_withoutRotationsBeforeResets body) later
    | rotation rotations =>
      have survive := survive_without rotations rest
      show Pruned _ (forgetRotations _ (.rotation rotations) ++ withoutRotationsBeforeResets rest)
      rw [forgetRotations]
      split
      · rename_i vacuous
        exact .idle survive vacuous later
      · rename_i turning
        exact .rotation survive (by simpa using turning) later
    | reset _ | measure _ | interact _ | interactSwap _ | swap _ | iswap _ | sqrtProduct _
    | feedback _ | product _ | parity _ | qubitCoords _ | shiftCoords _ | empty =>
      exact .other rfl rfl later

/-- The entries that are left are determined. -/
theorem Survive.unique {later : List Layer} {rotations left other : RotationLayer}
    (first : Survive later rotations left) (second : Survive later rotations other) :
    left = other := by
  have same : ∀ entry, entry ∈ left.rotations.entries ↔ entry ∈ other.rotations.entries := by
    intro entry
    rw [first entry, second entry]
  have perm : left.rotations.entries.Perm other.rotations.entries := by
    apply (List.perm_ext_iff_of_nodup _ _).mpr same
    · exact left.rotations.nodup_keys.of_map
    · exact other.rotations.nodup_keys.of_map
  exact congrArg RotationLayer.mk (QubitMap.eq_of_perm perm)

/-- What is left of a schedule is determined. -/
theorem Pruned.unique {schedule pruned other : List Layer} (first : Pruned schedule pruned)
    (second : Pruned schedule other) : pruned = other := by
  induction first generalizing other with
  | nil =>
    cases second
    rfl
  | loop _ _ inBody later =>
    cases second with
    | loop body rest => rw [inBody body, later rest]
    | other flat => cases flat
  | other flat still _ later =>
    cases second with
    | loop => cases flat
    | rotation => cases still
    | idle => cases still
    | other _ _ rest => rw [later rest]
  | rotation survive turning _ later =>
    cases second with
    | other _ still => cases still
    | rotation same _ rest => rw [survive.unique same, later rest]
    | idle same idle => rw [survive.unique same, idle] at turning; cases turning
  | idle survive idle _ later =>
    cases second with
    | other _ still => cases still
    | rotation same turning => rw [survive.unique same, turning] at idle; cases idle
    | idle _ _ rest => exact later rest

/-- Dropping rotations before resets leaves exactly what the relation says: layers other
    than rotations stay in order, on every level; an entry of a rotation layer is dropped
    if and only if some later layer of its level other than a rotation touches the qubit
    and the first such layer is a reset; and a rotation layer goes if and only if no entry
    that is left really rotates. -/
theorem pruned_iff (schedule pruned : Schedule) :
    Pruned schedule pruned ↔ pruned = schedule.withoutRotationsBeforeResets := by
  constructor
  · intro related
    exact related.unique (pruned_withoutRotationsBeforeResets schedule)
  · rintro rfl
    exact pruned_withoutRotationsBeforeResets schedule

/-- The loop is the first use of qubit 1, though its own rotation is dropped, and no reset;
    so only qubit 0 is forgotten before it. -/
example :
    (flattened (withoutRotationsBeforeResets
      [.rotation (.ofList [(0, .cycleXYZ), (1, .cycleXYZ), (2, .cycleZYX)]),
        .loop 2 [.rotation (.ofList [(1, .cycleXYZ)]), .reset (.ofList [(1, .X)])],
        .reset (.ofList [(0, .Z)]), .measure [⟨2, .Z, false⟩]])).map
      (fun layer => (layer.kind, layer.touched)) =
      [(.rotation, [1, 2]), (.loop, [1]), (.reset, [1]), (.reset, [0]), (.measure, [2])] := by
  decide +kernel

end Schedule

end StabilizerLayers
