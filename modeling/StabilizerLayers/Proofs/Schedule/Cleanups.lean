import StabilizerLayers.Proofs.Schedule.Compatible
import StabilizerLayers.Proofs.Schedule.Sweeping
import StabilizerLayers.Schedule.Coordinates
import StabilizerLayers.Schedule.Rolling
import StabilizerLayers.Schedule.RotationCleanup

/-!
# Clean-ups do what the schedule does

Rolling a rotation out of a loop moves it around the body: `(B R)ⁿ` and
`R⁻¹ (R B)ⁿ R` do the same. Merging carries a rotation back over layers that do
not touch its qubits. A rotation before a reset is forgotten if nothing between
them touches its qubit. Declarations of coordinates do nothing at all.

But for the sweeps that rolling makes on its way, none of this depends on the form of
the layers.
-/

namespace StabilizerLayers

/-- Doing what other layers do goes from parts to the whole. -/
theorem Agrees.compatible :
    Compatible fun before after => Agrees (Layer.actionsAll after) (Layer.actionsAll before) where
  refl _ := .refl _
  trans left right := right.trans left
  append left right := by
    rw [Layer.actionsAll_append, Layer.actionsAll_append]
    exact left.append right
  loop repetitions _ _ inner := by
    simpa [Layer.actionsAll, Layer.actions] using inner.repeated repetitions.toNat

/-! ### Rolling -/

/-- What is done before each round can be done once before all rounds and then
    after each of them. -/
theorem repeated_append (times : Nat) (first second : List Action) :
    repeated times (first ++ second) ++ first = first ++ repeated times (second ++ first) := by
  induction times with
  | zero => simp [repeated]
  | succ times inductionHypothesis =>
    simp only [repeated, List.replicate_succ, List.flatten_cons, List.append_assoc] at *
    rw [inductionHypothesis]

namespace Schedule

/-- A body is its timed part and the untimed layers after it. -/
theorem splitUntimed_append (body : List Layer) :
    (splitUntimed body).1.reverse ++ (splitUntimed body).2 = body := by
  rw [splitUntimed, ← List.reverse_append, List.takeWhile_append_dropWhile, List.reverse_reverse]

/-- A body with a final rotation, put together again. -/
theorem finalRotation?_eq_some {body : List Layer} {parts : FinalRotation}
    (found : finalRotation? body = some parts) :
    body = parts.before ++ [.rotation parts.rotation] ++ parts.after ∧
      ∀ id ∈ touched parts.after, id ∉ parts.rotation.touched := by
  have whole := splitUntimed_append body
  rw [finalRotation?] at found
  split at found
  · rename_i rotation earlier after split
    rw [split] at whole
    split at found
    · rename_i fits
      obtain rfl := Option.some.inj found
      obtain ⟨-, apart⟩ := Bool.and_eq_true_iff.mp fits
      exact ⟨by simpa using whole.symm, disjoint_eq_true_iff.mp apart⟩
    · cases found
  · cases found

/-- A rotation at the end of each round is one at the start of each round, if it
    is undone before the first and done once more after the last. -/
theorem agrees_rolled (rotation : RotationLayer) {rest body moved : List Action} (times : Nat)
    (ends : Agrees body (rest ++ (Layer.rotation rotation).actions))
    (starts : Agrees moved ((Layer.rotation rotation).actions ++ rest)) :
    Agrees ((Layer.rotation rotation.inverse).actions ++
        (repeated times moved ++ (Layer.rotation rotation).actions))
      (repeated times body) := by
  have around := (starts.repeated times).append (.refl (Layer.rotation rotation).actions)
  rw [repeated_append] at around
  have cancelled := (Agrees.rotation_inverse rotation).append
    (.refl (repeated times (rest ++ (Layer.rotation rotation).actions)))
  rw [List.append_assoc] at cancelled
  exact (((Agrees.refl _).append around).trans cancelled).trans (ends.repeated times).symm

/-- A loop whose body ends in a rotation does what it does after the rotation has been
    rolled out, if the moved body does what the body does with the rotation in front. -/
theorem agrees_rolledOut (repetitions : UInt64) {body moved : List Layer} {parts : FinalRotation}
    (found : finalRotation? body = some parts)
    (starts : Agrees (Layer.actionsAll moved)
      (Layer.actionsAll (.rotation parts.rotation :: parts.before ++ parts.after))) :
    Agrees
      (Layer.actionsAll
        [.rotation parts.rotation.inverse, .loop repetitions moved, .rotation parts.rotation])
      (Layer.loop repetitions body).actions := by
  obtain ⟨before, rotation, after⟩ := parts
  obtain ⟨whole, apart⟩ := finalRotation?_eq_some found
  have passed : Agrees ((Layer.rotation rotation).actions ++ Layer.actionsAll after)
      (Layer.actionsAll after ++ (Layer.rotation rotation).actions) :=
    (Layer.agrees_rotation_comm fun action made id member =>
      apart id (Layer.mem_touchedAll made member)).symm
  have ends : Agrees (Layer.actionsAll body)
      (Layer.actionsAll (before ++ after) ++ (Layer.rotation rotation).actions) := by
    rw [whole]
    simpa [Layer.actionsAll] using (Agrees.refl (Layer.actionsAll before)).append passed
  have rolled := agrees_rolled rotation repetitions.toNat ends starts
  simpa [Layer.actionsAll, Layer.actions] using rolled

/-! ### Fewer rotation layers -/

/-- An idle rotation can be dropped. -/
theorem agrees_idle {layer : Layer} (idle : layer.isIdleRotation = true) :
    Agrees [] layer.actions := by
  cases layer with
  | rotation rotations => exact (Agrees.rotation_of_isVacuous idle).symm
  | reset _ | measure _ | interact _ | interactSwap _ | swap _ | iswap _ | sqrtProduct _
  | feedback _ | product _ | parity _ | qubitCoords _ | shiftCoords _ | empty | loop _ _ =>
    cases idle

/-- Dropping the idle rotations of one level changes nothing. -/
theorem agrees_withoutIdleLevel (layers : List Layer) :
    Agrees (Layer.actionsAll (withoutIdleLevel layers)) (Layer.actionsAll layers) := by
  induction layers with
  | nil => exact .refl _
  | cons layer rest inductionHypothesis =>
    rw [withoutIdleLevel, List.filter_cons]
    split
    · exact (Agrees.refl layer.actions).append inductionHypothesis
    · rename_i idle
      exact (agrees_idle (by simpa using idle)).append inductionHypothesis

/-- Dropping idle rotations changes nothing. -/
theorem agrees_withoutIdleRotations (schedule : Schedule) :
    Agrees schedule.withoutIdleRotations.actions schedule.actions :=
  Agrees.compatible.everyLevel agrees_withoutIdleLevel schedule

/-- Merging rotations into earlier ones changes nothing. -/
theorem agrees_mergeRotations (schedule : Schedule) :
    Agrees schedule.mergeRotations.actions schedule.actions := by
  refine Agrees.compatible.everyLevel (Agrees.compatible.mergeLevel ?_ ?_ ?_) schedule
  · intro earlier later
    simpa [Layer.actionsAll] using (Agrees.rotation_followedBy earlier later).symm
  · intro rotations vacuous
    simpa [Layer.actionsAll] using (Agrees.rotation_of_isVacuous vacuous).symm
  · intro layer later _ _ apart
    have passed : Agrees (layer.actions ++ (Layer.rotation later).actions)
        ((Layer.rotation later).actions ++ layer.actions) :=
      Layer.agrees_rotation_comm fun action made id member =>
        apart id (Layer.mem_touched made member)
    simpa [Layer.actionsAll] using passed.symm

/-! ### Rotations before resets -/

/-- What a layer keeps of its rotations, with idle ones left out, is what its
    other qubits are rotated by. -/
theorem agrees_forgetRotations (resetNext : List Qubit) (rotations : RotationLayer) :
    Agrees (Layer.actionsAll (forgetRotations resetNext (.rotation rotations)))
      (Layer.rotation (rotations.without resetNext)).actions := by
  rw [forgetRotations]
  split
  · rename_i vacuous
    exact (Agrees.rotation_of_isVacuous vacuous).symm
  · simpa [Layer.actionsAll] using Agrees.refl _

/-- A layer that does not touch a qubit passes on that its rotations are
    forgotten. -/
theorem forgets_of_not_touched {layer : Layer} {kept : List Layer} {id : Qubit}
    (apart : id ∉ layer.touched) (forgets : Forgets id (Layer.actionsAll kept)) :
    Forgets id (layer.actions ++ Layer.actionsAll kept) :=
  Forgets.append_left (fun _ made member => apart (Layer.mem_touched made member)) forgets

/-- The rotations of a qubit that is reset before anything else touches it are
    forgotten. -/
theorem forgets_resetNextBefore {resetNext : List Qubit} {layer : Layer} {kept : List Layer}
    (forgets : ∀ id ∈ resetNext, Forgets id (Layer.actionsAll kept)) :
    ∀ id ∈ resetNextBefore resetNext layer,
      Forgets id (Layer.actionsAll (forgetRotations resetNext layer ++ kept)) := by
  intro id member
  rw [Layer.actionsAll_append]
  fun_cases resetNextBefore resetNext layer with
  | case1 rotations =>
    have turned : Forgets id ((Layer.rotation (rotations.without resetNext)).actions ++
        Layer.actionsAll kept) := by
      rw [Layer.actions]
      exact (forgets id member).turns _
    exact turned.of_agrees ((agrees_forgetRotations resetNext rotations).append (.refl _))
  | case2 targets =>
    simp only [forgetRotations, Layer.actionsAll, List.append_nil]
    by_cases here : id ∈ targets.keys
    · exact (Layer.forgets_reset targets here).append (Layer.actionsAll kept)
    · have later : id ∈ resetNext := by simpa [resetNextBefore, here] using member
      exact forgets_of_not_touched here (forgets id later)
  | case3 layer notRotation notReset =>
    obtain ⟨later, apart⟩ : id ∈ resetNext ∧ id ∉ layer.touched := by
      simpa [resetNextBefore] using member
    have stays : forgetRotations resetNext layer = [layer] := by
      cases layer <;> first | rfl | exact absurd rfl (notRotation _)
    rw [stays, Layer.actionsAll, Layer.actionsAll, List.append_nil]
    exact forgets_of_not_touched apart (forgets id later)

/-- The rotations of one layer that are forgotten can be dropped. -/
theorem agrees_forgotten {resetNext : List Qubit} {kept : List Layer}
    (forgets : ∀ id ∈ resetNext, Forgets id (Layer.actionsAll kept)) (layer : Layer) :
    Agrees (Layer.actionsAll (forgetRotations resetNext layer ++ kept))
      (layer.actions ++ Layer.actionsAll kept) := by
  rw [Layer.actionsAll_append]
  cases layer with
  | rotation rotations =>
    refine ((agrees_forgetRotations resetNext rotations).append (.refl _)).trans ?_
    rw [Layer.actions, Layer.actions]
    exact Agrees.turns_filter forgets rotations.rotations.entries
  | reset _ | measure _ | interact _ | interactSwap _ | swap _ | iswap _ | sqrtProduct _
  | feedback _ | product _ | parity _ | qubitCoords _ | shiftCoords _ | empty | loop _ _ =>
    simpa [forgetRotations, Layer.actionsAll] using Agrees.refl _

/-- Dropping the rotations of one level that resets forget changes nothing, and the
    qubits it finds to be reset next are indeed. -/
theorem agrees_forgetBeforeResets (layers : List Layer) :
    Agrees (Layer.actionsAll (forgetBeforeResets layers).2) (Layer.actionsAll layers) ∧
      ∀ id ∈ (forgetBeforeResets layers).1,
        Forgets id (Layer.actionsAll (forgetBeforeResets layers).2) := by
  induction layers with
  | nil => exact ⟨.refl _, by simp [forgetBeforeResets]⟩
  | cons layer rest inductionHypothesis =>
    obtain ⟨same, forgets⟩ := inductionHypothesis
    exact ⟨(agrees_forgotten forgets layer).trans ((Agrees.refl _).append same),
      forgets_resetNextBefore forgets⟩

/-- Dropping the rotations that resets forget changes nothing. -/
theorem agrees_withoutRotationsBeforeResets (schedule : Schedule) :
    Agrees schedule.withoutRotationsBeforeResets.actions schedule.actions :=
  Agrees.compatible.everyLevel (fun layers => (agrees_forgetBeforeResets layers).1) schedule

/-! ### Coordinates -/

/-- Coordinates are declared by a layer, and moved by the offset there. -/
theorem exists_of_mem_declaredCoords {offset : List Float} {layers : List Layer}
    {entry : Qubit × List Float} (declared : entry ∈ declaredCoords offset layers) :
    ∃ coordinates shift, .qubitCoords coordinates ∈ layers ∧
      entry ∈ (coordinates.mapValues (Layer.shiftedBy · shift)).entries := by
  fun_induction declaredCoords offset layers with
  | case1 => cases declared
  | case2 offset coordinates rest inductionHypothesis =>
    rcases List.mem_append.mp declared with here | later
    · exact ⟨coordinates, offset, .head _, here⟩
    · obtain ⟨coordinates, shift, listed, moved⟩ := inductionHypothesis later
      exact ⟨coordinates, shift, .tail _ listed, moved⟩
  | case3 offset layer rest _ inductionHypothesis =>
    obtain ⟨coordinates, shift, listed, moved⟩ := inductionHypothesis declared
    exact ⟨coordinates, shift, .tail _ listed, moved⟩

/-- Declarations of coordinates can be left out. -/
theorem actionsAll_withoutCoords (layers : List Layer) :
    Layer.actionsAll (layers.filter fun layer => !layer.isQubitCoords) =
      Layer.actionsAll layers := by
  induction layers with
  | nil => rfl
  | cons layer rest inductionHypothesis =>
    cases layer with
    | qubitCoords coordinates => exact inductionHypothesis
    | reset _ | measure _ | interact _ | interactSwap _ | swap _ | iswap _ | sqrtProduct _
    | feedback _ | rotation _ | product _ | parity _ | shiftCoords _ | empty | loop _ _ =>
      exact congrArg (Layer.actions _ ++ ·) inductionHypothesis

/-- Declaring coordinates at the start changes nothing. -/
theorem agrees_hoistCoords (schedule : Schedule) :
    Agrees schedule.hoistCoords.actions schedule.actions := by
  have same : schedule.hoistCoords.actions = schedule.actions := by
    rw [hoistCoords]
    split
    · exact actionsAll_withoutCoords schedule
    · exact actionsAll_withoutCoords schedule
  rw [same]
  exact .refl _

end Schedule

end StabilizerLayers
