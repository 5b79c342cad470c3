import Mathlib.Data.List.Lex
import Mathlib.Data.Set.Card
import StabilizerLayers.Schedule.Levels

/-!
# Positions in a schedule

A position names a layer by one index for each level: the index of a layer of the
schedule, then that of a layer of its body, and so on. A position that goes on is
behind the one where it stops, and otherwise the first index that differs decides. So
the lexicographic order of the positions is the depth-first order of the layers.

Flattening a schedule lists the layers by ascending position, each position once. What
is found first in the flattened schedule is at the least position of its kind, and
what is counted there is counted by position.
-/

namespace StabilizerLayers

/-- The layers that a layer owns. -/
def Layer.body : Layer → List Layer
  | loop _ body => body
  | _ => []

/-- The layer at a position within a layer, which itself has the empty position. -/
def Layer.at? : Layer → List Nat → Option Layer
  | layer, [] => some layer
  | layer, index :: below => layer.body[index]?.bind fun owned => owned.at? below

/-- The layer at a position of a schedule. -/
def Schedule.at? (schedule : Schedule) : List Nat → Option Layer
  | [] => none
  | index :: below => schedule[index]?.bind fun layer => layer.at? below

namespace Layer

mutual

/-- A layer and the layers of its body, with their positions within the layer. -/
def located : Layer → List (List Nat × Layer)
  | loop repetitions body => ([], loop repetitions body) :: locatedFrom 0 body
  | layer => [([], layer)]

/-- The layers of all levels with their positions, if the first layer has an index. -/
def locatedFrom : Nat → List Layer → List (List Nat × Layer)
  | _, [] => []
  | index, first :: rest =>
    (located first).map (Prod.map (index :: ·) id) ++ locatedFrom (index + 1) rest

end

mutual

/-- Without positions, the located layers are the flattened ones. -/
theorem map_snd_located (layer : Layer) : layer.located.map Prod.snd = layer.flattened := by
  cases layer with
  | loop repetitions body => rw [located, flattened, List.map_cons, map_snd_locatedFrom]
  | reset _ | measure _ | interact _ | interactSwap _ | swap _ | iswap _ | sqrtProduct _
  | feedback _ | rotation _ | product _ | parity _ | qubitCoords _ | shiftCoords _ | empty => rfl

/-- Without positions, the located layers are the flattened ones. -/
theorem map_snd_locatedFrom (index : Nat) (layers : List Layer) :
    (locatedFrom index layers).map Prod.snd = flattenedAll layers := by
  cases layers with
  | nil => rfl
  | cons first rest =>
    have inFirst : ((located first).map (Prod.map (index :: ·) id)).map Prod.snd =
        first.flattened := by
      rw [← map_snd_located, List.map_map]
      rfl
    rw [locatedFrom, flattenedAll, List.map_append, inFirst, map_snd_locatedFrom]

end

mutual

/-- The located layers are those that are at some position. -/
theorem mem_located_iff {layer inner : Layer} {position : List Nat} :
    (position, inner) ∈ layer.located ↔ layer.at? position = some inner := by
  cases layer with
  | loop repetitions body =>
    rw [located, List.mem_cons, mem_locatedFrom_iff]
    cases position with
    | nil =>
      constructor
      · rintro (same | ⟨_, _, impossible, -⟩)
        · rw [at?, (Prod.mk.inj same).2]
        · cases impossible
      · rintro ⟨⟩
        exact .inl rfl
    | cons index below => simp [at?, Layer.body, Schedule.at?]
  | reset _ | measure _ | interact _ | interactSwap _ | swap _ | iswap _ | sqrtProduct _
  | feedback _ | rotation _ | product _ | parity _ | qubitCoords _ | shiftCoords _ | empty =>
    cases position with
    | nil =>
      constructor
      · intro member
        rw [at?, (Prod.mk.inj (List.mem_singleton.mp member)).2]
      · rintro ⟨⟩
        exact .head _
    | cons index below => simp [located, at?, Layer.body]

/-- The located layers are those that are at some position. -/
theorem mem_locatedFrom_iff {index : Nat} {layers : List Layer} {inner : Layer}
    {position : List Nat} :
    (position, inner) ∈ locatedFrom index layers ↔
      ∃ place below, position = (index + place) :: below ∧
        Schedule.at? layers (place :: below) = some inner := by
  cases layers with
  | nil => simp [locatedFrom, Schedule.at?]
  | cons first rest =>
    rw [locatedFrom, List.mem_append, mem_locatedFrom_iff, List.mem_map]
    constructor
    · rintro (⟨⟨below, owned⟩, listed, moved⟩ | ⟨place, below, rfl, found⟩)
      · obtain ⟨rfl, rfl⟩ := Prod.mk.inj moved
        exact ⟨0, below, rfl, mem_located_iff.mp listed⟩
      · exact ⟨place + 1, below, by rw [Nat.add_right_comm]; rfl, found⟩
    · rintro ⟨place, below, rfl, found⟩
      cases place with
      | zero => exact .inl ⟨(below, inner), mem_located_iff.mpr found, rfl⟩
      | succ place => exact .inr ⟨place, below, by rw [Nat.add_right_comm]; rfl, found⟩

end

mutual

/-- The located layers are listed by ascending position. -/
theorem pairwise_located (layer : Layer) :
    layer.located.Pairwise fun first second => List.Lex (· < ·) first.1 second.1 := by
  cases layer with
  | loop repetitions body =>
    rw [located, List.pairwise_cons]
    refine ⟨fun ⟨position, inner⟩ listed => ?_, pairwise_locatedFrom 0 body⟩
    obtain ⟨place, below, rfl, -⟩ := mem_locatedFrom_iff.mp listed
    exact .nil
  | reset _ | measure _ | interact _ | interactSwap _ | swap _ | iswap _ | sqrtProduct _
  | feedback _ | rotation _ | product _ | parity _ | qubitCoords _ | shiftCoords _ | empty =>
    exact List.pairwise_singleton _ _

/-- The located layers are listed by ascending position. -/
theorem pairwise_locatedFrom (index : Nat) (layers : List Layer) :
    (locatedFrom index layers).Pairwise fun first second =>
      List.Lex (· < ·) first.1 second.1 := by
  cases layers with
  | nil => exact List.Pairwise.nil
  | cons first rest =>
    rw [locatedFrom, List.pairwise_append, List.pairwise_map]
    refine ⟨(pairwise_located first).imp .cons, pairwise_locatedFrom (index + 1) rest, ?_⟩
    -- The first index tells the layers of the first body from all later ones.
    rintro _ moved ⟨position, inner⟩ listed
    obtain ⟨⟨below, owned⟩, -, rfl⟩ := List.mem_map.mp moved
    obtain ⟨place, further, rfl, -⟩ := mem_locatedFrom_iff.mp listed
    exact .rel (by omega)

end

mutual

/-- Flattening lists as many layers as are counted. -/
theorem length_flattened (layer : Layer) : layer.flattened.length = layer.size := by
  cases layer with
  | loop repetitions body => rw [flattened, size, List.length_cons, length_flattenedAll]
  | reset _ | measure _ | interact _ | interactSwap _ | swap _ | iswap _ | sqrtProduct _
  | feedback _ | rotation _ | product _ | parity _ | qubitCoords _ | shiftCoords _ | empty => rfl

/-- Flattening lists as many layers as are counted. -/
theorem length_flattenedAll (layers : List Layer) :
    (flattenedAll layers).length = sizeAll layers := by
  cases layers with
  | nil => rfl
  | cons first rest =>
    rw [flattenedAll, sizeAll, List.length_append, length_flattened, length_flattenedAll]

end

end Layer

namespace Schedule

variable {schedule : Schedule} {test : Layer → Bool}

/-- The layers of all levels with their positions. -/
def located (schedule : Schedule) : List (List Nat × Layer) := Layer.locatedFrom 0 schedule

/-- The located layers are those that are at some position. -/
theorem mem_located_iff {position : List Nat} {layer : Layer} :
    (position, layer) ∈ schedule.located ↔ schedule.at? position = some layer := by
  rw [located, Layer.mem_locatedFrom_iff]
  cases position with
  | nil => simp [at?]
  | cons index below => simp

/-- Without positions, the located layers are the flattened ones. -/
theorem map_snd_located : schedule.located.map Prod.snd = schedule.flattened :=
  Layer.map_snd_locatedFrom 0 schedule

/-- The located layers are listed by ascending position. -/
theorem pairwise_located :
    schedule.located.Pairwise fun first second => List.Lex (· < ·) first.1 second.1 :=
  Layer.pairwise_locatedFrom 0 schedule

/-- No position is listed twice. -/
theorem nodup_map_fst_located : (schedule.located.map Prod.fst).Nodup := by
  refine List.pairwise_map.mpr (pairwise_located.imp fun earlier same => ?_)
  exact irrefl _ (same ▸ earlier)

/-- The first layer that passes a test is at a position before which all layers fail it. -/
theorem exists_at?_of_find?_flattened {layer : Layer}
    (found : schedule.flattened.find? test = some layer) :
    ∃ position, schedule.at? position = some layer ∧ test layer = true ∧
      ∀ earlier other, List.Lex (· < ·) earlier position → schedule.at? earlier = some other →
        test other = false := by
  rw [← map_snd_located, List.find?_map, Option.map_eq_some_iff] at found
  obtain ⟨⟨position, layer⟩, first, rfl⟩ := found
  obtain ⟨passes, before, after, split, fail⟩ := List.find?_eq_some_iff_append.mp first
  refine ⟨position, mem_located_iff.mp (List.mem_of_find?_eq_some first), passes, ?_⟩
  intro earlier other precedes there
  have ascending := split ▸ schedule.pairwise_located
  obtain ⟨behind, -⟩ := List.pairwise_cons.mp (List.pairwise_append.mp ascending).2.1
  have listed := split ▸ mem_located_iff.mpr there
  rcases List.mem_append.mp listed with inFront | later
  · simpa using fail _ inFront
  · rcases List.mem_cons.mp later with same | after
    · exact absurd ((Prod.mk.inj same).1 ▸ precedes) (irrefl _)
    · exact absurd (behind _ after) (asymm precedes)

/-- Counting flattened layers is counting positions. -/
theorem countP_flattened :
    schedule.flattened.countP test =
      {position | ∃ layer, schedule.at? position = some layer ∧ test layer = true}.ncard := by
  let passing := (schedule.located.filter (test ∘ Prod.snd)).map Prod.fst
  have distinct : passing.Nodup := nodup_map_fst_located.sublist (List.filter_sublist.map _)
  have positions : {position | ∃ layer, schedule.at? position = some layer ∧ test layer = true} =
      (passing.toFinset : Set (List Nat)) := by
    ext position
    simp [passing, mem_located_iff]
  rw [positions, Set.ncard_coe_finset, List.toFinset_card_of_nodup distinct, List.length_map,
    ← map_snd_located, List.countP_map, List.countP_eq_length_filter]

end Schedule

end StabilizerLayers
