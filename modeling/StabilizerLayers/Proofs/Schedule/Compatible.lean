import StabilizerLayers.Proofs.Trace.MapEntries
import StabilizerLayers.Schedule.Grouping
import StabilizerLayers.Schedule.RotationCleanup
import StabilizerLayers.Schedule.Sweep

/-!
# Properties of and relations between schedules

A property that a change of one level brings about, given the property of the loop bodies
in it, is brought about by a change of all levels, since the bodies are changed first.

A relation between schedules composes if it goes from neighbouring parts to both
together, and it is compatible if it also goes from a body to its loop. What a pass does
to one or two layers then decides what it does to a level, and what it does to one level
decides what it does to all.
-/

namespace StabilizerLayers

/-! ### Levels -/

/-- Whether a change of one level brings a property about, given that the level's loop
    bodies have it. -/
def BringsAbout (holds : List Layer → Prop) (change : List Layer → List Layer) : Prop :=
  ∀ layers, (∀ repetitions body, .loop repetitions body ∈ layers → holds body) →
    holds (change layers)

namespace BringsAbout

variable {holds : List Layer → Prop} {change : List Layer → List Layer}

mutual

/-- The changed body of a loop has the property. -/
theorem inBody (bringsAbout : BringsAbout holds change) {layer : Layer} {repetitions : UInt64}
    {body : List Layer} (changed : layer.inBody change = .loop repetitions body) :
    holds body := by
  cases layer with
  | loop count inner =>
    obtain ⟨-, rfl⟩ := Layer.loop.inj changed
    exact bringsAbout _ fun _ _ => inBodies bringsAbout
  | reset _ | measure _ | interact _ | interactSwap _ | swap _ | iswap _ | sqrtProduct _
  | feedback _ | rotation _ | product _ | parity _ | qubitCoords _ | shiftCoords _ | empty =>
    cases changed

/-- The changed bodies of a level have the property. -/
theorem inBodies (bringsAbout : BringsAbout holds change) {layers : List Layer}
    {repetitions : UInt64} {body : List Layer}
    (member : .loop repetitions body ∈ Layer.inBodies change layers) : holds body := by
  cases layers with
  | nil => cases member
  | cons first rest =>
    rcases List.mem_cons.mp member with here | later
    · exact inBody bringsAbout here.symm
    · exact inBodies bringsAbout later

end

/-- A change of every level brings the property about, whatever the schedule. -/
theorem everyLevel (bringsAbout : BringsAbout holds change) (schedule : Schedule) :
    holds (schedule.everyLevel change) :=
  bringsAbout _ fun _ _ => bringsAbout.inBodies

end BringsAbout

/-! ### Parts and wholes -/

/-- Whether a relation between levels goes from neighbouring parts to both together. -/
structure Composes (relates : List Layer → List Layer → Prop) : Prop where
  refl : ∀ layers, relates layers layers
  trans : ∀ {first second third}, relates first second → relates second third →
    relates first third
  append : ∀ {first second third other}, relates first second → relates third other →
    relates (first ++ third) (second ++ other)

/-- Whether a relation between schedules goes from parts to the whole. -/
structure Compatible (relates : List Layer → List Layer → Prop) : Prop
    extends Composes relates where
  loop : ∀ repetitions {first second}, relates first second →
    relates [.loop repetitions first] [.loop repetitions second]

namespace Composes

variable {relates : List Layer → List Layer → Prop} (composes : Composes relates)

include composes

/-- Layers can be changed one by one. -/
theorem flatMap {change : Layer → List Layer} (each : ∀ layer, relates [layer] (change layer))
    (layers : List Layer) : relates layers (layers.flatMap change) := by
  induction layers with
  | nil => exact composes.refl []
  | cons layer rest inductionHypothesis =>
    exact composes.append (each layer) inductionHypothesis

/-- What is changed one layer after the other, with the result kept latest first, is
    changed as a whole. -/
theorem foldl {step : List Layer → Layer → List Layer}
    (each : ∀ kept layer, relates (kept.reverse ++ [layer]) (step kept layer).reverse)
    (kept layers : List Layer) :
    relates (kept.reverse ++ layers) (layers.foldl step kept).reverse := by
  induction layers generalizing kept with
  | nil => simpa using composes.refl kept.reverse
  | cons layer rest inductionHypothesis =>
    have here : relates (kept.reverse ++ [layer] ++ rest) ((step kept layer).reverse ++ rest) :=
      composes.append (each kept layer) (composes.refl rest)
    simpa using composes.trans here (inductionHypothesis (step kept layer))

/-- Rotations that resets forget are dropped layer by layer. -/
theorem forgetBeforeResets
    (each : ∀ resetNext layer, relates [layer] (Schedule.forgetRotations resetNext layer))
    (layers : List Layer) : relates layers (Schedule.forgetBeforeResets layers).2 := by
  induction layers with
  | nil => exact composes.refl []
  | cons layer rest inductionHypothesis =>
    exact composes.append (each (Schedule.forgetBeforeResets rest).1 layer) inductionHypothesis

/-! ### Merging rotations -/

section

variable
  (joint : ∀ earlier later : RotationLayer,
    relates [.rotation earlier, .rotation later] [.rotation (earlier.followedBy later)])
  (idle : ∀ {rotations : RotationLayer}, rotations.isVacuous = true →
    relates [.rotation rotations] [])
  (passed : ∀ {layer : Layer} {later : RotationLayer},
    (∀ rotations, layer ≠ .rotation rotations) →
    (∀ repetitions body, layer ≠ .loop repetitions body) →
    (∀ id ∈ layer.touched, id ∉ later.touched) →
    relates [layer, .rotation later] [.rotation later, layer])

include joint idle passed

/-- A rotation passes the layers between it and the earlier one that it joins. -/
theorem joinEarlier? {later : RotationLayer} {kept joined : List Layer}
    (found : Schedule.joinEarlier? later kept = some joined) :
    relates (kept.reverse ++ [.rotation later]) joined.reverse := by
  fun_induction Schedule.joinEarlier? later kept generalizing joined with
  | case1 | case3 | case5 => cases found
  | case2 earlier before =>
    obtain rfl := Option.some.inj found
    have start := composes.refl before.reverse
    have whole := composes.append start (joint earlier later)
    split
    · rename_i vacuous
      simpa using composes.trans whole (composes.append start (idle vacuous))
    · simpa using whole
  | case4 layer before noRotation noLoop apart inductionHypothesis =>
    obtain ⟨rest, restFound, rfl⟩ := Option.map_eq_some_iff.mp found
    -- The rotation passes this layer, and then joins one of those before it.
    have moved := composes.append (composes.refl before.reverse)
      (passed noRotation noLoop (disjoint_eq_true_iff.mp apart))
    have further := composes.append (inductionHypothesis restFound) (composes.refl [layer])
    rw [List.append_assoc] at further
    simpa using composes.trans moved further

/-- Merging one more layer into those kept. -/
theorem mergeStep (kept : List Layer) (layer : Layer) :
    relates (kept.reverse ++ [layer]) (Schedule.mergeStep kept layer).reverse := by
  fun_cases Schedule.mergeStep kept layer with
  | case1 later =>
    cases found : Schedule.joinEarlier? later kept with
    | none => simpa using composes.refl (kept.reverse ++ [.rotation later])
    | some joined => exact composes.joinEarlier? joint idle passed found
  | case2 layer => simpa using composes.refl (kept.reverse ++ [layer])

/-- Merging the rotations of one level. -/
theorem mergeLevel (layers : List Layer) : relates layers (Schedule.mergeLevel layers) :=
  composes.foldl (composes.mergeStep joint idle passed) [] layers

end

end Composes

namespace Compatible

variable {relates : List Layer → List Layer → Prop} (compatible : Compatible relates)

include compatible

mutual

/-- A change of one level changes the body of a layer on all levels. -/
theorem inBody {change : List Layer → List Layer} (each : ∀ layers, relates layers (change layers))
    (layer : Layer) : relates [layer] [layer.inBody change] := by
  cases layer with
  | loop repetitions body =>
    exact compatible.loop repetitions
      (compatible.trans (inBodies each body) (each (Layer.inBodies change body)))
  | reset _ | measure _ | interact _ | interactSwap _ | swap _ | iswap _ | sqrtProduct _
  | feedback _ | rotation _ | product _ | parity _ | qubitCoords _ | shiftCoords _ | empty =>
    exact compatible.refl _

/-- A change of one level changes the bodies of layers on all levels. -/
theorem inBodies {change : List Layer → List Layer}
    (each : ∀ layers, relates layers (change layers)) (layers : List Layer) :
    relates layers (Layer.inBodies change layers) := by
  cases layers with
  | nil => exact compatible.refl []
  | cons first rest => exact compatible.append (inBody each first) (inBodies each rest)

end

/-- A change of one level is a change of all. -/
theorem everyLevel {change : List Layer → List Layer}
    (each : ∀ layers, relates layers (change layers)) (schedule : Schedule) :
    relates schedule (schedule.everyLevel change) :=
  compatible.trans (compatible.inBodies each schedule) (each (Layer.inBodies change schedule))

/-- The relation the other way round is compatible too. -/
theorem reversed : Compatible fun before after => relates after before where
  refl := compatible.refl
  trans left right := compatible.trans right left
  append := compatible.append
  loop repetitions _ _ inner := compatible.loop repetitions inner

/-! ### Sweeps -/

section

variable (alone : ∀ layer : Layer, relates [layer] layer.alone)
  (alongside : ∀ layer next : Layer, relates [layer, next] (layer.alongside next))

include alongside

/-- A layer is put beside the latest one. -/
theorem push (kept : List Layer) (layer : Layer) :
    relates (kept.reverse ++ [layer]) (Schedule.push kept layer).reverse := by
  cases kept with
  | nil => exact compatible.refl [layer]
  | cons latest earlier =>
    have beside := compatible.append (compatible.refl earlier.reverse) (alongside latest layer)
    simpa [Schedule.push] using beside

include alone

/-- A step of a sweep. -/
theorem sweepStep (kept : List Layer) (layer : Layer) :
    relates (kept.reverse ++ [layer]) (Schedule.sweepStep kept layer).reverse :=
  compatible.trans (compatible.append (compatible.refl kept.reverse) (alone layer))
    (compatible.foldl (compatible.push alongside) kept layer.alone)

/-- A sweep of all levels. -/
theorem sweep (schedule : Schedule) : relates schedule schedule.sweep :=
  compatible.everyLevel (compatible.foldl (compatible.sweepStep alone alongside) []) schedule

/-- Any number of sweeps. -/
theorem sweepUpTo (rounds : Nat) (schedule : Schedule) :
    relates schedule (Schedule.sweepUpTo rounds schedule) := by
  induction rounds generalizing schedule with
  | zero => exact compatible.refl schedule
  | succ rounds inductionHypothesis =>
    have swept := compatible.sweep alone alongside schedule
    rw [Schedule.sweepUpTo]
    split
    · exact swept
    · exact compatible.trans swept (inductionHypothesis schedule.sweep)

end

/-! ### Grouping -/

section

variable (absorb : ∀ {first second both : Layer}, first.absorb? second = some both →
  relates [first, second] [both])

include absorb

/-- A layer joins the open slot. -/
theorem groupingPush (grouping : Grouping) (layer : Layer) :
    relates (grouping.schedule ++ [layer]) (grouping.push layer).schedule := by
  obtain ⟨closed, current⟩ := grouping
  cases current with
  | nil => simpa [Grouping.push, Grouping.schedule] using compatible.refl (closed.reverse ++ [layer])
  | cons latest earlier =>
    rw [Grouping.push]
    dsimp only
    split
    · rename_i both absorbed
      have merged := compatible.append (compatible.refl (closed.reverse ++ earlier.reverse))
        (absorb absorbed)
      simpa [Grouping.schedule] using merged
    · simpa [Grouping.schedule] using
        compatible.refl (closed.reverse ++ (earlier.reverse ++ [latest, layer]))

/-- Layers join the open slot in order. -/
theorem groupingPushAll (grouping : Grouping) (layers : List Layer) :
    relates (grouping.schedule ++ layers) (grouping.pushAll layers).schedule := by
  induction layers generalizing grouping with
  | nil => simpa [Grouping.pushAll] using compatible.refl grouping.schedule
  | cons first rest inductionHypothesis =>
    have here := compatible.append (compatible.groupingPush absorb grouping first)
      (compatible.refl rest)
    rw [List.append_assoc] at here
    exact compatible.trans here (inductionHypothesis (grouping.push first))

end

/-- A slot is closed; an idle one leaves an empty layer. -/
theorem groupingTick (idle : relates [] [.empty]) (grouping : Grouping) :
    relates grouping.schedule grouping.tick.schedule := by
  obtain ⟨closed, current⟩ := grouping
  cases current with
  | nil =>
    simpa [Grouping.tick, Grouping.schedule] using
      compatible.append (compatible.refl closed.reverse) idle
  | cons latest earlier =>
    simpa [Grouping.tick, Grouping.schedule] using compatible.refl _

end Compatible

end StabilizerLayers
