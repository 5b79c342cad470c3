import StabilizerLayers.Pipeline.Pass
import StabilizerLayers.Proofs.Schedule.Cleanups
import StabilizerLayers.Proofs.Schedule.InstructionLayers
import StabilizerLayers.Proofs.Schedule.Tails
import StabilizerLayers.Proofs.Schedule.ZForms

/-!
# Properties of every layer

A property of single layers holds everywhere in a schedule if it holds of every
layer that is no loop, in loop bodies too. Grouping and the passes only ever merge
two layers, change one layer on its own, bring in rotations or leave layers out. So a
property that survives these few steps survives every pass, and holds of every
grouped circuit whose instructions have layers with it.
-/

namespace StabilizerLayers

namespace Layer

mutual

/-- Whether a property holds of a layer or, for a loop, everywhere in its body. -/
def Within (holds : Layer → Prop) : Layer → Prop
  | loop _ body => Everywhere holds body
  | layer => holds layer

/-- Whether a property holds of all layers that are no loops, in bodies too. -/
def Everywhere (holds : Layer → Prop) : List Layer → Prop
  | [] => True
  | first :: rest => first.Within holds ∧ Everywhere holds rest

end

variable {holds other : Layer → Prop}

/-- For a layer that is no loop, a property within it is one of the layer. -/
theorem within_of_flat {layer : Layer} (flat : layer.isLoop = false) :
    layer.Within holds ↔ holds layer := by
  cases layer with
  | loop _ _ => cases flat
  | reset _ | measure _ | interact _ | interactSwap _ | swap _ | iswap _ | sqrtProduct _
  | feedback _ | rotation _ | product _ | parity _ | qubitCoords _ | shiftCoords _ | empty =>
    exact Iff.rfl

/-- A property holds everywhere if it holds within each layer. -/
theorem everywhere_iff {layers : List Layer} :
    Everywhere holds layers ↔ ∀ layer ∈ layers, layer.Within holds := by
  induction layers with
  | nil => simp [Everywhere]
  | cons layer rest inductionHypothesis => simp [Everywhere, inductionHypothesis]

/-- What holds everywhere in two schedules holds everywhere in both together. -/
@[simp]
theorem everywhere_append {first second : List Layer} :
    Everywhere holds (first ++ second) ↔ Everywhere holds first ∧ Everywhere holds second := by
  simp only [everywhere_iff, List.mem_append, or_imp, forall_and]

mutual

/-- What follows from a property holds wherever the property does. -/
theorem Within.imp (implies : ∀ layer, layer.isLoop = false → holds layer → other layer)
    {layer : Layer} (within : layer.Within holds) : layer.Within other := by
  cases layer with
  | loop _ body => exact Everywhere.imp implies within
  | reset _ | measure _ | interact _ | interactSwap _ | swap _ | iswap _ | sqrtProduct _
  | feedback _ | rotation _ | product _ | parity _ | qubitCoords _ | shiftCoords _ | empty =>
    exact implies _ rfl within

/-- What follows from a property holds wherever the property does. -/
theorem Everywhere.imp (implies : ∀ layer, layer.isLoop = false → holds layer → other layer)
    {layers : List Layer} (everywhere : Everywhere holds layers) : Everywhere other layers := by
  cases layers with
  | nil => trivial
  | cons first rest => exact ⟨everywhere.1.imp implies, everywhere.2.imp implies⟩

end

mutual

/-- Two properties within a layer are both within it. -/
theorem Within.and {layer : Layer} (left : layer.Within holds) (right : layer.Within other) :
    layer.Within fun layer => holds layer ∧ other layer := by
  cases layer with
  | loop _ body => exact Everywhere.and left right
  | reset _ | measure _ | interact _ | interactSwap _ | swap _ | iswap _ | sqrtProduct _
  | feedback _ | rotation _ | product _ | parity _ | qubitCoords _ | shiftCoords _ | empty =>
    exact ⟨left, right⟩

/-- Two properties that hold everywhere hold together everywhere. -/
theorem Everywhere.and {layers : List Layer} (left : Everywhere holds layers)
    (right : Everywhere other layers) :
    Everywhere (fun layer => holds layer ∧ other layer) layers := by
  cases layers with
  | nil => trivial
  | cons first rest => exact ⟨left.1.and right.1, left.2.and right.2⟩

end

mutual

/-- A property holds within a layer if it holds of its flattened layers that are no
    loops. -/
theorem within_iff_flattened {layer : Layer} :
    layer.Within holds ↔ ∀ inner ∈ layer.flattened, inner.isLoop = false → holds inner := by
  cases layer with
  | loop repetitions body =>
    rw [Within, everywhere_iff_flattened, flattened]
    simp [isLoop]
  | reset _ | measure _ | interact _ | interactSwap _ | swap _ | iswap _ | sqrtProduct _
  | feedback _ | rotation _ | product _ | parity _ | qubitCoords _ | shiftCoords _ | empty =>
    simp [Within, flattened, isLoop]

/-- A property holds everywhere if it holds of the flattened layers that are no
    loops. -/
theorem everywhere_iff_flattened {layers : List Layer} :
    Everywhere holds layers ↔
      ∀ layer ∈ flattenedAll layers, layer.isLoop = false → holds layer := by
  cases layers with
  | nil => simp [Everywhere, flattenedAll]
  | cons first rest =>
    rw [Everywhere, flattenedAll, List.forall_mem_append, within_iff_flattened,
      everywhere_iff_flattened]

end

mutual

/-- A formed layer is well formed, in its body too. -/
theorem formed_iff_within {layer : Layer} : layer.Formed ↔ layer.Within WellFormed := by
  cases layer with
  | loop _ body => exact allFormed_iff_everywhere
  | reset _ | measure _ | interact _ | interactSwap _ | swap _ | iswap _ | sqrtProduct _
  | feedback _ | rotation _ | product _ | parity _ | qubitCoords _ | shiftCoords _ | empty =>
    exact Iff.rfl

/-- Formed layers are well formed everywhere. -/
theorem allFormed_iff_everywhere {layers : List Layer} :
    AllFormed layers ↔ Everywhere WellFormed layers := by
  cases layers with
  | nil => exact Iff.rfl
  | cons first rest => exact and_congr formed_iff_within allFormed_iff_everywhere

end

/-- A change of one level that brings a property to all of it, given the property in
    its bodies, brings the property everywhere. -/
theorem everywhere_everyLevel {change : List Layer → List Layer}
    (each : ∀ layers : List Layer,
      (∀ layer ∈ layers, layer.isLoop = true → layer.Within holds) →
        Everywhere holds (change layers))
    (schedule : Schedule) : Everywhere holds (schedule.everyLevel change) := by
  have bringsAbout : BringsAbout (Everywhere holds) change := by
    intro layers inBodies
    refine each layers fun layer listed loop => ?_
    cases layer with
    | loop repetitions body => exact inBodies repetitions body listed
    | reset _ | measure _ | interact _ | interactSwap _ | swap _ | iswap _ | sqrtProduct _
    | feedback _ | rotation _ | product _ | parity _ | qubitCoords _ | shiftCoords _ | empty =>
      cases loop
  exact bringsAbout.everyLevel schedule

/-- A property of rotations holds of those that are kept. -/
theorem everywhere_ofRotations (each : ∀ rotations, holds (.rotation rotations))
    (rotations : RotationLayer) : Everywhere holds (ofRotations rotations) := by
  fun_cases ofRotations rotations with
  | case1 => trivial
  | case2 => exact ⟨each _, trivial⟩

/-- A property of rotations holds around a layer if it holds within the layer. -/
theorem everywhere_between (each : ∀ rotations, holds (.rotation rotations))
    (before after : RotationLayer) {layer : Layer} (within : layer.Within holds) :
    Everywhere holds (between before layer after) :=
  everywhere_append.mpr
    ⟨everywhere_ofRotations each before, within, everywhere_ofRotations each after⟩

/-- A property of a layer other than a loop holds everywhere after it is put between
    rotations. -/
theorem everywhere_between_of_flat (each : ∀ rotations, holds (.rotation rotations))
    {before after : RotationLayer} {layer : Layer} (flat : layer.isLoop = false)
    (here : holds layer) : Everywhere holds (between before layer after) :=
  everywhere_between each before after ((within_of_flat flat).mpr here)

/-- A loop is its own Z-basis form, whatever its body is. -/
theorem zForm_of_isLoop {layer : Layer} (loop : layer.isLoop = true) : layer.zForm = [layer] := by
  cases layer with
  | loop repetitions body =>
    unfold zForm
    split <;> rfl
  | reset _ | measure _ | interact _ | interactSwap _ | swap _ | iswap _ | sqrtProduct _
  | feedback _ | rotation _ | product _ | parity _ | qubitCoords _ | shiftCoords _ | empty =>
    cases loop

/-- Whether a property survives all that grouping and the passes do to one layer or
    two neighbours. -/
structure Stable (holds : Layer → Prop) : Prop where
  empty : holds .empty
  rotation : ∀ rotations, holds (.rotation rotations)
  absorb : ∀ {first second both : Layer}, first.absorb? second = some both →
    holds first → holds second → holds both
  feedback : ∀ rotations {entries}, holds (.feedback entries) →
    holds (.feedback (feedbackBefore rotations entries))
  interactSwap : ∀ {couplings}, holds (.interact couplings) → holds (.interactSwap couplings)
  swapInteract : ∀ {couplings}, holds (.interact couplings) →
    holds (.interactSwap (couplingsBeforeSwap couplings))
  swaps : ∀ {first second pairs}, combineSwaps? first second = some pairs →
    holds (.swap first) → holds (.swap second) → holds (.swap pairs)
  zForm : ∀ {layer : Layer}, layer.isLoop = false → holds layer → Everywhere holds layer.zForm
  coords : ∀ {layers : List Layer}, Everywhere holds layers →
    holds (.qubitCoords (.ofList (Schedule.declaredCoords [] layers)))

/-- Two properties that survive the steps survive them together. -/
theorem Stable.and (left : Stable holds) (right : Stable other) :
    Stable fun layer => holds layer ∧ other layer where
  empty := ⟨left.empty, right.empty⟩
  rotation rotations := ⟨left.rotation rotations, right.rotation rotations⟩
  absorb found here there :=
    ⟨left.absorb found here.1 there.1, right.absorb found here.2 there.2⟩
  feedback rotations _ here := ⟨left.feedback rotations here.1, right.feedback rotations here.2⟩
  interactSwap here := ⟨left.interactSwap here.1, right.interactSwap here.2⟩
  swapInteract here := ⟨left.swapInteract here.1, right.swapInteract here.2⟩
  swaps combined here there :=
    ⟨left.swaps combined here.1 there.1, right.swaps combined here.2 there.2⟩
  zForm flat here := (left.zForm flat here.1).and (right.zForm flat here.2)
  coords everywhere :=
    ⟨left.coords (everywhere.imp fun _ _ both => both.1),
      right.coords (everywhere.imp fun _ _ both => both.2)⟩

end Layer

open Layer (Everywhere)

/-- Whether a property that holds everywhere before a change does so after it. -/
def Keeps (holds : Layer → Prop) (before after : List Layer) : Prop :=
  Everywhere holds before → Everywhere holds after

namespace Keeps

variable {holds : Layer → Prop}

/-- What keeps a property in the parts keeps it in the whole. -/
protected theorem compatible : Compatible (Keeps holds) where
  refl _ := id
  trans left right everywhere := right (left everywhere)
  append left right everywhere :=
    have parts := Layer.everywhere_append.mp everywhere
    Layer.everywhere_append.mpr ⟨left parts.1, right parts.2⟩
  loop _ _ _ inner everywhere := ⟨inner everywhere.1, trivial⟩

/-- Leaving layers out keeps a property. -/
theorem of_subset {before after : List Layer} (listed : ∀ layer ∈ after, layer ∈ before) :
    Keeps holds before after := fun everywhere =>
  Layer.everywhere_iff.mpr fun layer member =>
    Layer.everywhere_iff.mp everywhere layer (listed layer member)

end Keeps

namespace Layer.Stable

variable {holds : Layer → Prop} (stable : Layer.Stable holds)

include stable

/-! ### One layer and two neighbours -/

/-- Merging two layers into one. -/
theorem keeps_absorb? {first second both : Layer} (found : first.absorb? second = some both) :
    Keeps holds [first, second] [both] := by
  rintro ⟨here, there, -⟩
  obtain ⟨firstFlat, secondFlat, bothFlat⟩ := (Layer.absorbs_of_absorb? found).flat
  refine ⟨(Layer.within_of_flat bothFlat).mpr (stable.absorb found ?_ ?_), trivial⟩
  · exact (Layer.within_of_flat firstFlat).mp here
  · exact (Layer.within_of_flat secondFlat).mp there

/-- What two neighbours come to. -/
theorem keeps_alongside (layer next : Layer) :
    Keeps holds [layer, next] (layer.alongside next) := by
  rintro ⟨here, there, -⟩
  fun_cases Layer.alongside layer next with
  | case1 => exact Layer.everywhere_ofRotations stable.rotation _
  | case2 rotations targets =>
    refine Layer.everywhere_append.mpr ⟨?_, there, trivial⟩
    exact Layer.everywhere_ofRotations stable.rotation _
  | case3 rotations entries => exact ⟨stable.feedback rotations there, here, trivial⟩
  | case4 | case6 | case7 => exact ⟨there, here, trivial⟩
  | case5 | case8 | case10 | case12 | case15 => exact ⟨here, there, trivial⟩
  | case9 => exact ⟨stable.interactSwap here, trivial⟩
  | case11 => exact ⟨stable.swapInteract there, trivial⟩
  | case13 => trivial
  | case14 first second pairs _ combined => exact ⟨stable.swaps combined here there, trivial⟩
  | case16 layer next =>
    rw [Layer.merged]
    split
    · rename_i both found
      exact stable.keeps_absorb? found ⟨here, there, trivial⟩
    · exact ⟨here, there, trivial⟩

/-- What a single layer comes to. -/
theorem keeps_alone (layer : Layer) : Keeps holds [layer] layer.alone := by
  rintro ⟨here, -⟩
  fun_cases Layer.alone layer with
  | case1 => exact Layer.everywhere_ofRotations stable.rotation _
  | case2 repetitions body =>
    fun_cases Layer.unloop repetitions body with
    | case1 => trivial
    | case2 => exact here
    | case3 => exact Layer.everywhere_ofRotations stable.rotation _
    | case4 => exact ⟨here, trivial⟩
  | case3 => trivial
  | case4 => exact ⟨here, trivial⟩

/-- The Z-basis form of a layer. -/
theorem keeps_zForm (layer : Layer) : Keeps holds [layer] layer.zForm := by
  rintro ⟨here, -⟩
  cases loop : layer.isLoop with
  | false => exact stable.zForm loop ((Layer.within_of_flat loop).mp here)
  | true => exact Layer.zForm_of_isLoop loop ▸ ⟨here, trivial⟩

/-! ### Passes -/

/-- A sweep. -/
theorem keeps_sweep (schedule : Schedule) : Keeps holds schedule schedule.sweep :=
  Keeps.compatible.sweep stable.keeps_alone stable.keeps_alongside schedule

omit stable in
/-- A body with its final rotation in front holds the same layers. -/
theorem everywhere_rotationFirst {body : List Layer} {parts : Schedule.FinalRotation}
    (found : Schedule.finalRotation? body = some parts) (inBody : Everywhere holds body) :
    Everywhere holds (.rotation parts.rotation :: parts.before ++ parts.after) := by
  obtain ⟨whole, -⟩ := Schedule.finalRotation?_eq_some found
  rw [whole] at inBody
  simp only [Layer.everywhere_append] at inBody
  obtain ⟨⟨inBefore, turned, -⟩, inAfter⟩ := inBody
  exact ⟨turned, Layer.everywhere_append.mpr ⟨inBefore, inAfter⟩⟩

/-- Rolling the final rotation out of a loop. -/
theorem keeps_rolled (repetitions : UInt64) (body : List Layer) :
    Keeps holds [.loop repetitions body] (Schedule.rolled repetitions body) := by
  fun_cases Schedule.rolled repetitions body with
  | case1 | case2 => exact id
  | case3 before rotation after found moved _ =>
    rintro ⟨inBody, -⟩
    have inMoved : Everywhere holds moved :=
      stable.keeps_sweep _ (everywhere_rotationFirst found inBody)
    exact ⟨stable.rotation _, inMoved, stable.rotation _, trivial⟩

/-- Rolling a layer. -/
theorem keeps_rollLayer (layer : Layer) : Keeps holds [layer] (Schedule.rollLayer layer) := by
  cases layer with
  | loop repetitions body =>
    rintro ⟨inBody, -⟩
    exact stable.keeps_rolled repetitions (Schedule.sweep body)
      ⟨stable.keeps_sweep body inBody, trivial⟩
  | reset _ | measure _ | interact _ | interactSwap _ | swap _ | iswap _ | sqrtProduct _
  | feedback _ | rotation _ | product _ | parity _ | qubitCoords _ | shiftCoords _ | empty =>
    exact id

/-- Merging the rotations of one level brings in nothing but rotations. -/
theorem keeps_mergeLevel (layers : List Layer) :
    Keeps holds layers (Schedule.mergeLevel layers) := by
  refine Keeps.compatible.mergeLevel ?_ ?_ ?_ layers
  · intro earlier later _
    exact ⟨stable.rotation _, trivial⟩
  · intro rotations _ _
    trivial
  · rintro layer later _ _ _ ⟨here, there, -⟩
    exact ⟨there, here, trivial⟩

/-- Dropping rotations that resets forget. -/
theorem keeps_forgetBeforeResets (layers : List Layer) :
    Keeps holds layers (Schedule.forgetBeforeResets layers).2 := by
  refine Keeps.compatible.forgetBeforeResets ?_ layers
  rintro resetNext layer ⟨here, -⟩
  fun_cases Schedule.forgetRotations resetNext layer with
  | case1 => trivial
  | case2 => exact ⟨stable.rotation _, trivial⟩
  | case3 => exact ⟨here, trivial⟩

/-- Declaring coordinates at the start. -/
theorem keeps_hoistCoords (schedule : Schedule) : Keeps holds schedule schedule.hoistCoords := by
  intro everywhere
  have remaining : Everywhere holds (schedule.filter fun layer => !layer.isQubitCoords) :=
    Keeps.of_subset (fun layer member => (List.mem_filter.mp member).1) everywhere
  rw [Schedule.hoistCoords]
  split
  · exact remaining
  · exact ⟨stable.coords everywhere, remaining⟩

/-- Every pass keeps a stable property. -/
theorem keeps_transform (pass : Pass) (schedule : Schedule) :
    Keeps holds schedule (pass.transform schedule) := by
  have compatible : Compatible (Keeps holds) := Keeps.compatible
  cases pass with
  | hoistCoords => exact stable.keeps_hoistCoords schedule
  | sweep rounds =>
    exact compatible.sweepUpTo stable.keeps_alone stable.keeps_alongside rounds schedule
  | zForm => exact compatible.everyLevel (compatible.flatMap stable.keeps_zForm) schedule
  | rollLoops => exact compatible.everyLevel (compatible.flatMap stable.keeps_rollLayer) schedule
  | dropIdleRotations =>
    refine compatible.everyLevel (fun layers => .of_subset fun layer member => ?_) schedule
    exact (List.mem_filter.mp member).1
  | mergeRotations =>
    exact compatible.everyLevel stable.keeps_mergeLevel schedule
  | dropRotationsBeforeResets =>
    exact compatible.everyLevel stable.keeps_forgetBeforeResets schedule
  | dropTail =>
    obtain ⟨start, tail, whole, dropped, -⟩ := Schedule.withoutTail_parts schedule
    refine .of_subset fun layer member => ?_
    rw [Pass.transform, dropped] at member
    rw [whole]
    rcases List.mem_append.mp member with here | later
    · exact List.mem_append_left _ here
    · exact List.mem_append_right _ (List.mem_filter.mp later).1
  | verify => exact id

end Layer.Stable

/-! ### Grouping -/

namespace Grouping

variable {holds : Layer → Prop}

/-- An instruction whose layers have the property adds no other layers. -/
theorem everywhere_instruction (stable : Layer.Stable holds) {grouping next : Grouping}
    {instruction : Instruction} (before : Everywhere holds grouping.schedule)
    (each : ∀ layers, instruction.layers = .ok layers → Everywhere holds layers)
    (read : grouping.instruction instruction = .ok next) : Everywhere holds next.schedule := by
  have compatible : Compatible (Keeps holds) := Keeps.compatible
  rw [Grouping.instruction] at read
  split at read
  · obtain rfl := Except.ok.inj read
    exact compatible.groupingTick (fun _ => ⟨stable.empty, trivial⟩) grouping before
  · obtain ⟨layers, made, rfl⟩ := exists_of_map_eq_ok read
    have added := Layer.everywhere_append.mpr ⟨before, each layers made⟩
    exact compatible.groupingPushAll stable.keeps_absorb? grouping layers added

mutual

/-- An operation whose instructions have layers with the property adds no others. -/
theorem everywhere_operation (stable : Layer.Stable holds) {grouping next : Grouping}
    {operation : Operation} (before : Everywhere holds grouping.schedule)
    (each : ∀ instruction ∈ operation.instructions, ∀ layers, instruction.layers = .ok layers →
      Everywhere holds layers)
    (read : grouping.operation operation = .ok next) : Everywhere holds next.schedule := by
  cases operation with
  | single instruction =>
    exact everywhere_instruction stable before (each instruction (.head _)) read
  | block repetitions body =>
    rw [Grouping.operation] at read
    split at read
    · cases read
    · rename_i inner grouped
      obtain rfl := Except.ok.inj read
      have nothing : Everywhere holds start.schedule := trivial
      have within : Everywhere holds inner.schedule :=
        everywhere_operations stable nothing each grouped
      have looped : Everywhere holds (grouping.schedule ++ [.loop repetitions inner.schedule]) :=
        Layer.everywhere_append.mpr ⟨before, within, trivial⟩
      simpa [pushLoop, schedule] using looped

/-- Operations whose instructions have layers with the property add no others. -/
theorem everywhere_operations (stable : Layer.Stable holds) {grouping next : Grouping}
    {circuit : List Operation} (before : Everywhere holds grouping.schedule)
    (each : ∀ instruction ∈ Operation.instructionsAll circuit, ∀ layers,
      instruction.layers = .ok layers → Everywhere holds layers)
    (read : grouping.operations circuit = .ok next) : Everywhere holds next.schedule := by
  cases circuit with
  | nil =>
    obtain rfl := Except.ok.inj read
    exact before
  | cons first rest =>
    rw [operations] at read
    split at read
    · cases read
    · rename_i middle here
      have between := everywhere_operation stable before
        (fun instruction member => each instruction (List.mem_append_left _ member)) here
      exact everywhere_operations stable between
        (fun instruction member => each instruction (List.mem_append_right _ member)) read

end

end Grouping

/-- A stable property holds everywhere in a grouped circuit if the layers of all its
    instructions have it. -/
theorem Schedule.everywhere_ofCircuit {holds : Layer → Prop} (stable : Layer.Stable holds)
    {circuit : Circuit} {schedule : Schedule}
    (each : ∀ instruction ∈ Operation.instructionsAll circuit, ∀ layers,
      instruction.layers = .ok layers → Everywhere holds layers)
    (grouped : Schedule.ofCircuit circuit = .ok schedule) : Everywhere holds schedule := by
  obtain ⟨grouping, read, rfl⟩ := exists_of_map_eq_ok grouped
  have nothing : Everywhere holds Grouping.start.schedule := trivial
  exact Grouping.everywhere_operations stable nothing each read

end StabilizerLayers
