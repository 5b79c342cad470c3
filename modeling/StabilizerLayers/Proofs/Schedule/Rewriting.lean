import StabilizerLayers.Proofs.Schedule.Everywhere

/-!
# Rewritings of schedules

A rewriting of a schedule keeps a form of its layers and does what the schedule does,
provided that the schedule has the form everywhere. Rewritings of parts are rewritings
of the whole.

Which form is asked for is left open. A sweep, and rolling with its sweeps, rely on
entries on distinct qubits and on whole products; Z-basis forms rely on the former
only. Any form that says so much and survives the passes will do, such as the form that
grouping gives to layers.
-/

namespace StabilizerLayers

open Layer (Everywhere NamesOnce HoldsProducts Stable WellFormed)

/-- Whether layers that have a form everywhere can be rewritten into others. -/
def Rewrites (form : Layer → Prop) (before after : List Layer) : Prop :=
  Everywhere form before →
    Everywhere form after ∧ Agrees (Layer.actionsAll after) (Layer.actionsAll before)

variable {form : Layer → Prop}

/-- Rewritings of parts are rewritings of the whole. -/
protected theorem Rewrites.compatible : Compatible (Rewrites form) where
  refl _ everywhere := ⟨everywhere, .refl _⟩
  trans left right everywhere := by
    obtain ⟨between, sameBetween⟩ := left everywhere
    obtain ⟨after, sameAfter⟩ := right between
    exact ⟨after, sameAfter.trans sameBetween⟩
  append left right everywhere := by
    obtain ⟨hereBefore, thereBefore⟩ := Layer.everywhere_append.mp everywhere
    obtain ⟨here, sameHere⟩ := left hereBefore
    obtain ⟨there, sameThere⟩ := right thereBefore
    exact ⟨Layer.everywhere_append.mpr ⟨here, there⟩, Agrees.compatible.append sameHere sameThere⟩
  loop repetitions _ _ inner everywhere := by
    obtain ⟨within, same⟩ := inner everywhere.1
    exact ⟨⟨within, trivial⟩, Agrees.compatible.loop repetitions same⟩

/-- Whether a form survives every pass and says what the passes rely on. -/
structure Layer.Sufficient (form : Layer → Prop) : Prop extends Stable form where
  namesOnce : ∀ {layer : Layer}, form layer → layer.NamesOnce
  holdsProducts : ∀ {layer : Layer}, form layer → layer.HoldsProducts

namespace Layer

/-- A layer with a form that names qubits once does so; of a loop nothing is asked. -/
theorem Within.namesOnce (once : ∀ {layer : Layer}, form layer → layer.NamesOnce) {layer : Layer}
    (within : layer.Within form) : layer.NamesOnce := by
  cases layer with
  | loop _ _ => trivial
  | reset _ | measure _ | interact _ | interactSwap _ | swap _ | iswap _ | sqrtProduct _
  | feedback _ | rotation _ | product _ | parity _ | qubitCoords _ | shiftCoords _ | empty =>
    exact once within

/-- A layer with a form that holds whole products does so; of a loop nothing is asked. -/
theorem Within.holdsProducts (whole : ∀ {layer : Layer}, form layer → layer.HoldsProducts)
    {layer : Layer} (within : layer.Within form) : layer.HoldsProducts := by
  cases layer with
  | loop _ _ => trivial
  | reset _ | measure _ | interact _ | interactSwap _ | swap _ | iswap _ | sqrtProduct _
  | feedback _ | rotation _ | product _ | parity _ | qubitCoords _ | shiftCoords _ | empty =>
    exact whole within

/-! ### Z-basis forms -/

/-- The Z-basis form of a layer is a rewriting of it. -/
theorem Stable.rewrites_zForm (stable : Stable form)
    (once : ∀ {layer : Layer}, form layer → layer.NamesOnce) (layer : Layer) :
    Rewrites form [layer] layer.zForm := by
  intro everywhere
  refine ⟨stable.keeps_zForm layer everywhere, ?_⟩
  simpa [actionsAll] using agrees_zForm (everywhere.1.namesOnce once)

/-- The Z-basis form of every level is a rewriting. -/
theorem Stable.rewrites_zForms (stable : Stable form)
    (once : ∀ {layer : Layer}, form layer → layer.NamesOnce) (schedule : Schedule) :
    Rewrites form schedule schedule.zForm :=
  Rewrites.compatible.everyLevel (Rewrites.compatible.flatMap (stable.rewrites_zForm once)) schedule

end Layer

namespace Layer.Sufficient

variable (sufficient : Layer.Sufficient form)

include sufficient

/-! ### Neighbours and sweeps -/

/-- Two layers that share a slot are rewritten into one. -/
theorem rewrites_absorb? {first second both : Layer} (found : first.absorb? second = some both) :
    Rewrites form [first, second] [both] := by
  intro everywhere
  refine ⟨sufficient.keeps_absorb? found everywhere, ?_⟩
  obtain ⟨here, there, -⟩ := everywhere
  simpa [Layer.actionsAll] using Layer.agrees_absorb? found
    (here.holdsProducts sufficient.holdsProducts) (there.holdsProducts sufficient.holdsProducts)

/-- What two neighbours come to is a rewriting of them. -/
theorem rewrites_alongside (layer next : Layer) :
    Rewrites form [layer, next] (layer.alongside next) := by
  intro everywhere
  refine ⟨sufficient.keeps_alongside layer next everywhere, ?_⟩
  obtain ⟨here, there, -⟩ := everywhere
  simpa [Layer.actionsAll] using Layer.agrees_alongside
    (here.namesOnce sufficient.namesOnce) (there.namesOnce sufficient.namesOnce)
    (here.holdsProducts sufficient.holdsProducts) (there.holdsProducts sufficient.holdsProducts)

/-- What a single layer comes to is a rewriting of it. -/
theorem rewrites_alone (layer : Layer) : Rewrites form [layer] layer.alone := by
  intro everywhere
  refine ⟨sufficient.keeps_alone layer everywhere, ?_⟩
  simpa [Layer.actionsAll] using Layer.agrees_alone layer

/-- A sweep is a rewriting. -/
theorem rewrites_sweep (schedule : Schedule) : Rewrites form schedule schedule.sweep :=
  Rewrites.compatible.sweep sufficient.rewrites_alone sufficient.rewrites_alongside schedule

/-- Any number of sweeps is a rewriting. -/
theorem rewrites_sweepUpTo (rounds : Nat) (schedule : Schedule) :
    Rewrites form schedule (schedule.sweepUpTo rounds) :=
  Rewrites.compatible.sweepUpTo sufficient.rewrites_alone sufficient.rewrites_alongside rounds
    schedule

/-! ### Rolling -/

/-- Rolling the final rotation out of a loop is a rewriting. -/
theorem rewrites_rolled (repetitions : UInt64) (body : List Layer) :
    Rewrites form [.loop repetitions body] (Schedule.rolled repetitions body) := by
  intro everywhere
  refine ⟨sufficient.keeps_rolled repetitions body everywhere, ?_⟩
  fun_cases Schedule.rolled repetitions body with
  | case1 | case2 => exact .refl _
  | case3 before rotation after found moved _ =>
    have inFront := Layer.Stable.everywhere_rotationFirst found everywhere.1
    obtain ⟨-, starts⟩ := sufficient.rewrites_sweep _ inFront
    have rolledOut := Schedule.agrees_rolledOut repetitions found starts
    rw [← List.append_nil (Layer.loop repetitions body).actions] at rolledOut
    exact rolledOut

/-- Rolling rotations out of all loops is a rewriting. -/
theorem rewrites_rollLoops (schedule : Schedule) : Rewrites form schedule schedule.rollLoops := by
  have compatible : Compatible (Rewrites form) := Rewrites.compatible
  refine compatible.everyLevel (compatible.flatMap fun layer => ?_) schedule
  cases layer with
  | loop repetitions body =>
    exact compatible.trans (compatible.loop repetitions (sufficient.rewrites_sweep body))
      (sufficient.rewrites_rolled repetitions (Schedule.sweep body))
  | reset _ | measure _ | interact _ | interactSwap _ | swap _ | iswap _ | sqrtProduct _
  | feedback _ | rotation _ | product _ | parity _ | qubitCoords _ | shiftCoords _ | empty =>
    exact compatible.refl _

end Layer.Sufficient

/-! ### The form that grouping gives -/

namespace Layer

/-- Merged layers are well formed if both parts are. -/
theorem wellFormed_absorb? {first second both : Layer} (found : first.absorb? second = some both)
    (here : first.WellFormed) (there : second.WellFormed) : both.WellFormed := by
  cases absorbs_of_absorb? found with
  | measure apart | interact apart | interactSwap apart | swap apart | iswap apart
  | sqrtProduct apart =>
    have joint := List.Nodup.append here there apart
    simpa [WellFormed, touched] using joint
  | feedback _ | parity _ _ => exact List.forall_mem_append.mpr ⟨here, there⟩
  | product _ => exact FormsProducts.append here there
  | reset _ | rotation _ _ | qubitCoords _ _ | shiftCoords _ _ => trivial

/-- The Z-basis form of a well-formed layer changes axes and brings in rotations only. -/
theorem everywhere_wellFormed_zForm {layer : Layer} (flat : layer.isLoop = false)
    (formed : layer.WellFormed) : Everywhere WellFormed layer.zForm := by
  fun_cases Layer.zForm layer with
  | case1 | case7 => exact ⟨(within_of_flat flat).mpr formed, trivial⟩
  | case2 => exact everywhere_between_of_flat (fun _ => trivial) rfl trivial
  | case3 =>
    refine everywhere_between_of_flat (fun _ => trivial) rfl ?_
    show (touched _).Nodup
    rw [touched, List.map_map]
    exact formed
  | case4 | case5 | case6 =>
    refine everywhere_between_of_flat (fun _ => trivial) rfl ?_
    show (touched _).Nodup
    rw [touched, List.flatMap_map]
    exact formed

/-- The form that grouping gives survives every pass and says what the passes rely on. -/
theorem sufficient_wellFormed : Sufficient WellFormed where
  empty := trivial
  rotation _ := trivial
  absorb := wellFormed_absorb?
  feedback rotations entries formed entry member := by
    obtain ⟨original, listed, rfl⟩ := List.mem_map.mp member
    exact formed original listed
  interactSwap formed := formed
  swapInteract {couplings} formed := (perm_couplingsBeforeSwap couplings).nodup_iff.mpr formed
  swaps := nodup_combineSwaps?
  zForm := everywhere_wellFormed_zForm
  coords _ := trivial
  namesOnce := WellFormed.namesOnce
  holdsProducts := WellFormed.holdsProducts

end Layer

/-- A rewriting stands for the same actions. -/
theorem StandFor.rewrite {layers others : List Layer} {actions : List Action}
    (stand : StandFor layers actions) (rewrites : Rewrites WellFormed layers others) :
    StandFor others actions := by
  obtain ⟨formed, same⟩ := rewrites (Layer.allFormed_iff_everywhere.mp stand.1)
  exact ⟨Layer.allFormed_iff_everywhere.mpr formed, same.trans stand.2⟩

end StabilizerLayers
