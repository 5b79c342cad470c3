import StabilizerLayers.Proofs.Schedule.Compatible
import StabilizerLayers.Proofs.Schedule.Sweeping

/-!
# What a sweep leaves

A sweep simplifies a layer on its own before the layer meets its neighbour, and never
after. So a rule for two neighbours must not bring in a layer that could be simplified
again: merged entries, cancelled exchanges, composed rotations and bodies told once are
all simple if what they were made of is. Then every layer that a sweep leaves is simple,
on all levels and for any schedule.
-/

namespace StabilizerLayers

namespace QubitMap

variable {α : Type}

/-- A map has entries after one is set. -/
theorem upsertEntries_ne_nil (id : Qubit) (update : Option α → α) (entries : List (Qubit × α)) :
    upsertEntries id update entries ≠ [] := by
  fun_cases upsertEntries id update entries <;> simp

/-- A map with entries has entries after others are set. -/
theorem isEmpty_insertAll {map : QubitMap α} (filled : map.isEmpty = false)
    (added : List (Qubit × α)) : (map.insertAll added).isEmpty = false := by
  induction added generalizing map with
  | nil => exact filled
  | cons entry rest inductionHypothesis =>
    apply inductionHypothesis
    rw [isEmpty, List.isEmpty_eq_false_iff]
    exact upsertEntries_ne_nil entry.1 (fun _ => entry.2) map.entries

end QubitMap

namespace Layer

/-- Whether a layer on its own cannot be told more simply. -/
structure IsSimple (layer : Layer) : Prop where
  /-- There is something in the timing slot. -/
  filled : layer ≠ .empty
  /-- The layer has an effect. Offsets may add up to nothing, and then stay. -/
  effective : layer.isVacuous = true → ∃ shift, layer = .shiftCoords shift
  /-- Rotations really rotate, each of them. -/
  turning : ∀ rotations, layer = .rotation rotations →
    ∀ entry ∈ rotations.rotations.entries, entry.2 ≠ .identity
  /-- A loop runs more than once, and does more than to rotate. -/
  repeating : ∀ repetitions body, layer = .loop repetitions body →
    repetitions ≠ 0 ∧ repetitions ≠ 1 ∧ body ≠ [] ∧ ∀ rotations, body ≠ [.rotation rotations]

/-- Whether nothing but an effect is asked of a simple layer. -/
def asksEffect : Layer → Bool
  | rotation _ | shiftCoords _ | loop _ _ => false
  | _ => true

/-- Whether a layer is simple, and all layers of its body are. -/
def SimpleThroughout (layer : Layer) : Prop := ∀ inner ∈ layer.flattened, inner.IsSimple

/-- Whether layers are simple, with their bodies. -/
def AllSimple (layers : List Layer) : Prop := ∀ layer ∈ layers, layer.SimpleThroughout

/-! ### Simple layers -/

namespace IsSimple

/-- A layer of which nothing but an effect is asked is simple if it has one. -/
theorem iff_effective {layer : Layer} (asks : layer.asksEffect = true) :
    layer.IsSimple ↔ layer.isVacuous = false := by
  constructor
  · intro simple
    by_contra vacuous
    obtain ⟨shift, rfl⟩ := simple.effective (by simpa using vacuous)
    cases asks
  · intro effective
    constructor
    · rintro rfl
      cases effective
    · intro vacuous
      rw [effective] at vacuous
      cases vacuous
    · rintro rotations rfl
      cases asks
    · rintro repetitions body rfl
      cases asks

/-- Nothing is asked of an offset. -/
theorem shiftCoords (shift : List Float) : (Layer.shiftCoords shift).IsSimple where
  filled := by simp
  effective _ := ⟨shift, rfl⟩
  turning := by simp
  repeating := by simp

/-- A rotation that rotates something is simple if it has no identity entries. -/
theorem rotation {rotations : RotationLayer} (effective : rotations.isVacuous = false)
    (turning : ∀ entry ∈ rotations.rotations.entries, entry.2 ≠ .identity) :
    (Layer.rotation rotations).IsSimple where
  filled := by simp
  effective vacuous := by
    rw [isVacuous, effective] at vacuous
    cases vacuous
  turning _ same := Layer.rotation.inj same ▸ turning
  repeating := by simp

/-- A loop that runs more than once and does more than to rotate is simple. -/
theorem loop {repetitions : UInt64} {body : List Layer} (running : repetitions ≠ 0)
    (several : repetitions ≠ 1) (filled : body ≠ [])
    (more : ∀ rotations, body ≠ [.rotation rotations]) :
    (Layer.loop repetitions body).IsSimple where
  filled := by simp
  effective vacuous := by
    obtain never | idle : repetitions = 0 ∨ body = [] := by simpa [isVacuous] using vacuous
    · exact absurd never running
    · exact absurd idle filled
  turning := by simp
  repeating count inner same := by
    obtain ⟨rfl, rfl⟩ := Layer.loop.inj same
    exact ⟨running, several, filled, more⟩

/-- A merged layer is simple if the first of the two is, unless they are rotations. -/
theorem of_absorbs {first second both : Layer} (absorbs : Absorbs first second both)
    (noRotation : ∀ rotations, first ≠ .rotation rotations) (simple : first.IsSimple) :
    both.IsSimple := by
  cases absorbs with
  | rotation first _ => exact absurd rfl (noRotation first)
  | shiftCoords first second => exact .shiftCoords (addShift first second)
  | reset _ | qubitCoords _ _ =>
    have filled := (iff_effective rfl).mp simple
    exact (iff_effective rfl).mpr (QubitMap.isEmpty_insertAll filled _)
  | measure _ | interact _ | interactSwap _ | swap _ | iswap _ | sqrtProduct _ | feedback _
  | product _ | parity _ _ =>
    have filled := (iff_effective rfl).mp simple
    refine (iff_effective rfl).mpr ?_
    simp_all [isVacuous]

end IsSimple

/-! ### Layers with their bodies -/

/-- A layer with simple layers throughout is simple itself. -/
theorem SimpleThroughout.isSimple {layer : Layer} (simple : layer.SimpleThroughout) :
    layer.IsSimple := by
  apply simple
  cases layer <;> exact .head _

/-- A layer without a body is simple throughout if it is simple. -/
theorem IsSimple.throughout {layer : Layer} (simple : layer.IsSimple)
    (flat : layer.isLoop = false) : layer.SimpleThroughout := by
  intro inner listed
  cases layer with
  | loop _ _ => cases flat
  | reset _ | measure _ | interact _ | interactSwap _ | swap _ | iswap _ | sqrtProduct _
  | feedback _ | rotation _ | product _ | parity _ | qubitCoords _ | shiftCoords _ | empty =>
    obtain rfl := List.mem_singleton.mp listed
    exact simple

/-- A layer of which nothing but an effect is asked is simple throughout if it has one. -/
theorem simpleThroughout_of_effective {layer : Layer} (asks : layer.asksEffect = true)
    (effective : layer.isVacuous = false) : layer.SimpleThroughout := by
  refine ((IsSimple.iff_effective asks).mpr effective).throughout ?_
  cases layer with
  | loop _ _ => cases asks
  | reset _ | measure _ | interact _ | interactSwap _ | swap _ | iswap _ | sqrtProduct _
  | feedback _ | rotation _ | product _ | parity _ | qubitCoords _ | shiftCoords _ | empty => rfl

/-- Simple layers with their bodies are those whose flattened layers are simple. -/
theorem allSimple_iff {layers : List Layer} :
    AllSimple layers ↔ ∀ layer ∈ flattenedAll layers, layer.IsSimple := by
  rw [flattenedAll_eq_flatMap, List.forall_mem_flatMap]
  exact Iff.rfl

/-- One layer is simple with its body. -/
theorem allSimple_single {layer : Layer} (simple : layer.SimpleThroughout) : AllSimple [layer] :=
  List.forall_mem_singleton.mpr simple

/-- Two layers are simple with their bodies. -/
theorem allSimple_pair {first second : Layer} (here : first.SimpleThroughout)
    (there : second.SimpleThroughout) : AllSimple [first, second] :=
  List.forall_mem_cons.mpr ⟨here, allSimple_single there⟩

/-- Rotations that are kept are simple. -/
theorem allSimple_ofRotations (rotations : RotationLayer) : AllSimple (ofRotations rotations) := by
  rw [ofRotations]
  split
  · exact List.forall_mem_nil _
  · rename_i effective
    refine allSimple_single (.throughout (.rotation (by simpa using effective) ?_) rfl)
    intro entry listed
    have turning := (List.mem_filter.mp listed).2
    simpa using turning

/-! ### Neighbours -/

/-- What two simple layers come to is simple. -/
theorem allSimple_alongside {layer next : Layer} (here : layer.SimpleThroughout)
    (there : next.SimpleThroughout) : AllSimple (layer.alongside next) := by
  fun_cases alongside layer next with
  | case1 => exact allSimple_ofRotations _
  | case2 => exact List.forall_mem_append.mpr ⟨allSimple_ofRotations _, allSimple_single there⟩
  | case3 rotations entries =>
    refine allSimple_pair (simpleThroughout_of_effective rfl ?_) here
    have filled := (IsSimple.iff_effective rfl).mp there.isSimple
    simpa [isVacuous, feedbackBefore] using filled
  | case4 | case6 | case7 => exact allSimple_pair there here
  | case5 | case8 | case10 | case12 | case15 => exact allSimple_pair here there
  | case9 couplings pairs =>
    have filled := (IsSimple.iff_effective rfl).mp here.isSimple
    exact allSimple_single (simpleThroughout_of_effective rfl filled)
  | case11 pairs couplings =>
    refine allSimple_single (simpleThroughout_of_effective rfl ?_)
    have filled := (IsSimple.iff_effective rfl).mp there.isSimple
    simpa [isVacuous, couplingsBeforeSwap] using filled
  | case13 => exact List.forall_mem_nil _
  | case14 first second pairs left =>
    refine allSimple_single (simpleThroughout_of_effective rfl ?_)
    simpa [isVacuous] using left
  | case16 layer next apart =>
    rw [merged]
    split
    · rename_i both found
      have absorbs := absorbs_of_absorb? found
      obtain ⟨-, -, flat⟩ := absorbs.flat
      -- Merging rotations could leave none that rotates, but they are composed instead.
      have noRotation : ∀ rotations, layer ≠ .rotation rotations := by
        rintro rotations rfl
        cases absorbs with
        | rotation _ second => exact apart rotations second rfl rfl
      exact allSimple_single ((here.isSimple.of_absorbs absorbs noRotation).throughout flat)
    · exact allSimple_pair here there

/-- What a layer comes to on its own is simple if its body is. -/
theorem allSimple_alone {layer : Layer}
    (inBody : ∀ repetitions body, layer = .loop repetitions body → AllSimple body) :
    AllSimple layer.alone := by
  fun_cases alone layer with
  | case1 => exact allSimple_ofRotations _
  | case2 repetitions body =>
    have simple := inBody repetitions body rfl
    fun_cases unloop repetitions body with
    | case1 => exact List.forall_mem_nil _
    -- A body told once consists of layers that met their neighbours in its own sweep.
    | case2 => exact simple
    | case3 => exact allSimple_ofRotations _
    | case4 _ runs several more =>
      obtain ⟨running, filled⟩ : repetitions ≠ 0 ∧ body ≠ [] := by simpa using runs
      have repeating : (loop repetitions body).IsSimple :=
        .loop running (by simpa using several) filled more
      exact allSimple_single (List.forall_mem_cons.mpr ⟨repeating, allSimple_iff.mp simple⟩)
  | case3 => exact List.forall_mem_nil _
  | case4 layer noRotation noLoop effective =>
    refine allSimple_single ?_
    cases layer with
    | rotation rotations => exact absurd rfl (noRotation rotations)
    | loop repetitions body => exact absurd rfl (noLoop repetitions body)
    | shiftCoords shift => exact (IsSimple.shiftCoords shift).throughout rfl
    | reset _ | measure _ | interact _ | interactSwap _ | swap _ | iswap _ | sqrtProduct _
    | feedback _ | product _ | parity _ | qubitCoords _ | empty =>
      exact simpleThroughout_of_effective rfl (by simpa using effective)

end Layer

namespace Schedule

/-! ### Sweeps -/

/-- A layer beside the latest one leaves simple layers. -/
theorem allSimple_push {kept : List Layer} {layer : Layer} (before : Layer.AllSimple kept)
    (simple : layer.SimpleThroughout) : Layer.AllSimple (push kept layer) := by
  cases kept with
  | nil => exact Layer.allSimple_single simple
  | cons latest earlier =>
    obtain ⟨here, others⟩ := List.forall_mem_cons.mp before
    refine List.forall_mem_append.mpr ⟨?_, others⟩
    intro result listed
    exact Layer.allSimple_alongside here simple result (List.mem_reverse.mp listed)

/-- One more layer with a simple body leaves simple layers. -/
theorem allSimple_sweepStep {kept : List Layer} {layer : Layer} (before : Layer.AllSimple kept)
    (inBody : ∀ repetitions body, layer = .loop repetitions body → Layer.AllSimple body) :
    Layer.AllSimple (sweepStep kept layer) :=
  List.foldlRecOn layer.alone push before fun _ simple result listed =>
    allSimple_push simple (Layer.allSimple_alone inBody result listed)

/-- A sweep of one level leaves simple layers if the bodies are simple. -/
theorem bringsAbout_sweepLevel : BringsAbout Layer.AllSimple sweepLevel := by
  intro layers inBodies
  have swept : Layer.AllSimple (layers.foldl sweepStep []) := by
    refine List.foldlRecOn layers sweepStep (List.forall_mem_nil _) ?_
    intro kept simple layer listed
    refine allSimple_sweepStep simple ?_
    rintro repetitions body rfl
    exact inBodies repetitions body listed
  intro layer listed
  exact swept layer (List.mem_reverse.mp listed)

/-- Every layer that a sweep leaves is simple, on all levels: it is not empty; unless it is
    an offset, it has an effect; none of its rotations is the identity; and if it is a
    loop, it runs more than once and its body is neither empty nor a single rotation. -/
theorem isSimple_of_mem_sweep (schedule : Schedule) :
    ∀ layer ∈ schedule.sweep.flattened, layer.IsSimple :=
  Layer.allSimple_iff.mp (bringsAbout_sweepLevel.everyLevel schedule)

/-- A schedule in which layers become simple only together: exchanges and rotations cancel,
    and loops that run once, never or only rotate are left out. -/
def tangledSample : Schedule :=
  [.loop 1 [.swap [(0, 1)], .empty], .swap [(0, 1)], .loop 0 [.measure [⟨0, .X, true⟩]],
    .rotation (.ofList [(0, .identity), (1, .exchange .X)]),
    .loop 3 [.rotation (.ofList [(2, .cycleXYZ)])],
    .loop 2 [.loop 1 [.empty], .measure [⟨0, .Z, false⟩], .rotation .empty]]

/-- Of fourteen layers three are left, and the loop among them is simple. -/
theorem isSimple_of_mem_sweep_tangled :
    tangledSample.flattened.map Layer.kind =
      [.loop, .swap, .empty, .swap, .loop, .measure, .rotation, .loop, .rotation, .loop, .loop,
        .empty, .measure, .rotation] ∧
    tangledSample.sweep.flattened.map Layer.kind = [.rotation, .loop, .measure] ∧
    Layer.loop 2 [.measure [⟨0, .Z, false⟩]] ∈ tangledSample.sweep.flattened ∧
    (Layer.loop 2 [.measure [⟨0, .Z, false⟩]]).IsSimple := by
  have listed : Layer.loop 2 [.measure [⟨0, .Z, false⟩]] ∈ tangledSample.sweep.flattened :=
    List.mem_of_getElem? (i := 1) rfl
  exact ⟨by decide +kernel, by decide +kernel, listed, isSimple_of_mem_sweep _ _ listed⟩

end Schedule

end StabilizerLayers
