import Mathlib.Data.List.Induction
import StabilizerLayers.Schedule.Coordinates
import StabilizerLayers.Schedule.Levels
import StabilizerLayers.Schedule.Tail

/-!
# Where the tail of a schedule starts

The tail of a schedule starts behind the last layer that measures, owns a body, or is
metadata that names a qubit. Removal of the tail leaves what comes before it as it is and
keeps the metadata of the tail, in order. This is said without the walk from the end that
finds the tail. The walk takes off one layer at a time, so the statements follow by
induction on the schedule from its end.
-/

namespace StabilizerLayers

namespace Layer

/-- Whether the tail can only start behind a layer: it measures, owns a body, or is
    metadata that names a qubit. -/
def endsTail : Layer → Bool
  | measure _ | product _ | loop _ _ => true
  | layer => layer.isMetadata && !layer.touched.isEmpty

/-- A layer ends the tail exactly if it is neither left out nor passed over. -/
theorem endsTail_eq (layer : Layer) :
    layer.endsTail = (!layer.isForgettable && !layer.namesNoQubit) := by
  cases layer <;> simp [endsTail, isForgettable, namesNoQubit, isMetadata]

/-- A layer that can be left out is no metadata, owns no body and shifts no coordinates. -/
theorem plain_of_isForgettable {layer : Layer} (forgettable : layer.isForgettable = true) :
    layer.isMetadata = false ∧ layer.flattened = [layer] ∧ layer.totalShift = [] := by
  cases layer with
  | reset _ | interact _ | interactSwap _ | swap _ | iswap _ | sqrtProduct _ | feedback _
  | rotation _ | empty => simp [isMetadata, flattened, totalShift]
  | measure _ | product _ | parity _ | qubitCoords _ | shiftCoords _ | loop _ _ =>
    cases forgettable

/-- Nothing is added to an offset by the offset without numbers. -/
theorem addShift_nil (offset : List Float) : addShift offset [] = offset := by
  cases offset <;> simp [addShift]

end Layer

namespace Schedule

/-- The position behind the last layer that ends the tail, and 0 if there is none. -/
def tailStart (schedule : Schedule) : Nat :=
  schedule.length - schedule.reverse.findIdx Layer.endsTail

/-- The layers of all levels after one more layer. -/
theorem flattened_append (schedule : Schedule) (last : Layer) :
    flattened (schedule ++ [last]) = schedule.flattened ++ last.flattened := by
  simp [flattened, Layer.flattenedAll_eq_flatMap]

/-- The offset after one more layer. -/
theorem totalShift_append (schedule : Schedule) (last : Layer) :
    totalShift (schedule ++ [last]) = Layer.addShift schedule.totalShift last.totalShift := by
  have further : ∀ offset, Layer.shiftAfter offset (schedule ++ [last]) =
      Layer.addShift (Layer.shiftAfter offset schedule) last.totalShift := by
    induction schedule with
    | nil => simp [Layer.shiftAfter]
    | cons layer rest inductionHypothesis => simp [Layer.shiftAfter, inductionHypothesis]
  exact further []

/-- The tail lies in the schedule. -/
theorem tailStart_le (schedule : Schedule) : schedule.tailStart ≤ schedule.length :=
  Nat.sub_le _ _

/-- A last layer that ends the tail leaves no tail, and another one belongs to it. -/
theorem tailStart_append (schedule : Schedule) (last : Layer) :
    tailStart (schedule ++ [last]) =
      if last.endsTail then schedule.length + 1 else schedule.tailStart := by
  rw [tailStart, List.reverse_append, List.reverse_singleton, List.singleton_append,
    List.findIdx_cons, List.length_append, List.length_singleton, tailStart]
  cases last.endsTail with
  | true => simp
  | false => simp

/-- What becomes of the last layer of a schedule. -/
theorem withoutTail_append (schedule : Schedule) (last : Layer) :
    withoutTail (schedule ++ [last]) =
      if last.isForgettable then schedule.withoutTail
      else if last.namesNoQubit then schedule.withoutTail ++ [last]
      else schedule ++ [last] := by
  rw [withoutTail, List.reverse_append, List.reverse_singleton, List.singleton_append, dropTail]
  split
  · rfl
  · split
    · exact List.reverse_cons
    · simp

/-- What holds of a schedule and what is left of it, told layer by layer from the end: a
    layer is left out, it is passed over, or it ends the tail and nothing more is taken
    off. -/
theorem withoutTail_induction {motive : Schedule → Schedule → Prop} (nil : motive [] [])
    (leftOut : ∀ {before after last}, last.isForgettable = true → motive before after →
      motive (before ++ [last]) after)
    (passed : ∀ {before after last}, last.isForgettable = false → last.namesNoQubit = true →
      motive before after → motive (before ++ [last]) (after ++ [last]))
    (ended : ∀ {before last}, last.isForgettable = false → last.namesNoQubit = false →
      motive (before ++ [last]) (before ++ [last]))
    (schedule : Schedule) : motive schedule schedule.withoutTail := by
  induction schedule using List.reverseRecOn with
  | nil => exact nil
  | append_singleton earlier last inductionHypothesis =>
    rw [withoutTail_append]
    cases forgettable : last.isForgettable with
    | true => exact leftOut forgettable inductionHypothesis
    | false =>
      cases named : last.namesNoQubit with
      | true => exact passed forgettable named inductionHypothesis
      | false => exact ended forgettable named

/-- Removal of the tail keeps what comes before the tail and the metadata in it. -/
theorem withoutTail_eq_take_append (schedule : Schedule) :
    schedule.withoutTail = schedule.take schedule.tailStart ++
      (schedule.drop schedule.tailStart).filter Layer.isMetadata := by
  refine withoutTail_induction (motive := fun before after => after = before.take before.tailStart ++
    (before.drop before.tailStart).filter Layer.isMetadata) rfl ?_ ?_ ?_ schedule
  · rintro before after last forgettable rfl
    have inside := before.tailStart_le
    obtain ⟨noMetadata, -, -⟩ := Layer.plain_of_isForgettable forgettable
    simp [tailStart_append, Layer.endsTail_eq, forgettable, noMetadata,
      List.take_append_of_le_length inside, List.drop_append_of_le_length inside]
  · rintro before after last kept unnamed rfl
    have inside := before.tailStart_le
    have metadata : last.isMetadata = true := (Bool.and_eq_true_iff.mp unnamed).1
    simp [tailStart_append, Layer.endsTail_eq, kept, unnamed, metadata,
      List.take_append_of_le_length inside, List.drop_append_of_le_length inside]
  · intro before last kept named
    have whole : tailStart (before ++ [last]) = (before ++ [last]).length := by
      simp [tailStart_append, Layer.endsTail_eq, kept, named]
    rw [whole, List.take_length, List.drop_length, List.filter_nil, List.append_nil]

/-- A schedule without its tail has no tail but metadata. -/
theorem withoutTail_withoutTail (schedule : Schedule) :
    schedule.withoutTail.withoutTail = schedule.withoutTail := by
  refine withoutTail_induction (motive := fun _ after => after.withoutTail = after) rfl ?_ ?_ ?_
    schedule
  · intro before after last _ same
    exact same
  · intro before after last kept unnamed same
    simp [withoutTail_append, kept, unnamed, same]
  · intro before last kept named
    simp [withoutTail_append, kept, named]

/-- Metadata on all levels outlives the removal of the tail. -/
theorem metadata_withoutTail (schedule : Schedule) :
    schedule.withoutTail.flattened.filter Layer.isMetadata =
      schedule.flattened.filter Layer.isMetadata := by
  refine withoutTail_induction (motive := fun before after =>
    after.flattened.filter Layer.isMetadata = before.flattened.filter Layer.isMetadata)
    rfl ?_ ?_ ?_ schedule
  · intro before after last forgettable same
    obtain ⟨noMetadata, single, -⟩ := Layer.plain_of_isForgettable forgettable
    simp [flattened_append, same, single, noMetadata]
  · intro before after last _ _ same
    simp [flattened_append, same]
  · intro before last _ _
    rfl

/-- The removal of the tail shifts no coordinates. -/
theorem totalShift_withoutTail (schedule : Schedule) :
    schedule.withoutTail.totalShift = schedule.totalShift := by
  refine withoutTail_induction (motive := fun before after => after.totalShift = before.totalShift)
    rfl ?_ ?_ ?_ schedule
  · intro before after last forgettable same
    obtain ⟨-, -, still⟩ := Layer.plain_of_isForgettable forgettable
    rw [totalShift_append, still, Layer.addShift_nil, same]
  · intro before after last _ _ same
    rw [totalShift_append, totalShift_append, same]
  · intro before last _ _
    rfl

/-- Removal of the tail leaves the layers up to the last one that measures, owns a body or
    is metadata that names a qubit, followed by the metadata behind it, in order. So a
    second removal changes nothing, all metadata is kept, on all levels and in order, and
    coordinates are shifted as before. -/
theorem withoutTail_exact (schedule : Schedule) :
    schedule.withoutTail = schedule.take schedule.tailStart ++
      (schedule.drop schedule.tailStart).filter Layer.isMetadata ∧
    schedule.withoutTail.withoutTail = schedule.withoutTail ∧
    schedule.withoutTail.flattened.filter Layer.isMetadata =
      schedule.flattened.filter Layer.isMetadata ∧
    schedule.withoutTail.totalShift = schedule.totalShift :=
  ⟨withoutTail_eq_take_append schedule, withoutTail_withoutTail schedule,
    metadata_withoutTail schedule, totalShift_withoutTail schedule⟩

/-- Of a tail with exchanges between a detector and an observable on no qubit, the
    exchanges are left out; the observable on a qubit before them ends the tail. -/
example :
    (withoutTail [.measure [⟨0, .Z, false⟩], .rotation (.ofList [(1, .cycleXYZ)]),
      .parity [.on .observableInclude [.pauli .X 1 false]], .parity [.on .detector [.record 1]],
      .swap [(0, 1)], .parity [.on .observableInclude [.record 1]], .empty]).map Layer.kind =
      [.measure, .rotation, .parity, .parity, .parity] := by
  decide +kernel

end Schedule

end StabilizerLayers
