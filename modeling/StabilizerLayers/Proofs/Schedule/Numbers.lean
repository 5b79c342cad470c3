import StabilizerLayers.Proofs.Schedule.Everywhere

/-!
# Schedules without numbers

Numbers come into a schedule as arguments of detectors and observables, as
coordinates and as offsets. No pass brings in a number of its own: where no layer
holds one, on any level, none does afterwards.
-/

namespace StabilizerLayers

namespace Layer

/-- Whether a layer holds no numbers outside its body. -/
def Bare : Layer → Prop
  | parity instructions => ∀ instruction ∈ instructions, instruction.arguments = []
  | qubitCoords coordinates => ∀ entry ∈ coordinates.entries, entry.2 = []
  | shiftCoords shift => shift = []
  | _ => True

mutual

/-- Whether a layer holds no numbers, in its body neither. -/
def NumberFree : Layer → Prop
  | loop _ body => AllNumberFree body
  | layer => layer.Bare

/-- Whether no layer holds numbers, in bodies neither. -/
def AllNumberFree : List Layer → Prop
  | [] => True
  | first :: rest => first.NumberFree ∧ AllNumberFree rest

end

mutual

/-- A layer is free of numbers if it is bare, in its body too. -/
theorem numberFree_iff_within {layer : Layer} : layer.NumberFree ↔ layer.Within Bare := by
  cases layer with
  | loop _ body => exact allNumberFree_iff_everywhere
  | reset _ | measure _ | interact _ | interactSwap _ | swap _ | iswap _ | sqrtProduct _
  | feedback _ | rotation _ | product _ | parity _ | qubitCoords _ | shiftCoords _ | empty =>
    exact Iff.rfl

/-- Layers are free of numbers if they are bare everywhere. -/
theorem allNumberFree_iff_everywhere {layers : List Layer} :
    AllNumberFree layers ↔ Everywhere Bare layers := by
  cases layers with
  | nil => exact Iff.rfl
  | cons first rest => exact and_congr numberFree_iff_within allNumberFree_iff_everywhere

end

/-- A merged layer is bare if its parts are. -/
theorem bare_absorb? {first second both : Layer} (found : first.absorb? second = some both)
    (firstBare : first.Bare) (secondBare : second.Bare) : both.Bare := by
  cases absorbs_of_absorb? found with
  | reset | measure | interact | interactSwap | swap | iswap | sqrtProduct | feedback | rotation
  | product => trivial
  | parity => exact List.forall_mem_append.mpr ⟨firstBare, secondBare⟩
  | qubitCoords =>
    intro entry member
    rcases QubitMap.mem_insertAll member with here | later
    · exact firstBare entry here
    · exact secondBare entry later
  | shiftCoords first second =>
    obtain rfl : first = [] := firstBare
    obtain rfl : second = [] := secondBare
    exact rfl

/-- Declared coordinates hold no numbers if no layer does. -/
theorem bare_declaredCoords {layers : List Layer} (bare : Everywhere Bare layers)
    {offset : List Float} {entry : Qubit × List Float}
    (member : entry ∈ Schedule.declaredCoords offset layers) : entry.2 = [] := by
  obtain ⟨coordinates, shift, listed, moved⟩ := Schedule.exists_of_mem_declaredCoords member
  obtain ⟨declared, held, rfl⟩ := List.mem_map.mp moved
  have none : declared.2 = [] := everywhere_iff.mp bare _ listed declared held
  rw [none]
  rfl

/-- Being bare survives every pass. -/
theorem stable_bare : Stable Bare where
  empty := trivial
  rotation _ := trivial
  absorb := bare_absorb?
  feedback _ _ _ := trivial
  interactSwap _ := trivial
  swapInteract _ := trivial
  swaps _ _ _ := trivial
  zForm {layer} flat bare := by
    fun_cases Layer.zForm layer with
    | case1 | case7 => exact ⟨(within_of_flat flat).mpr bare, trivial⟩
    | case2 | case3 | case4 | case5 | case6 =>
      exact everywhere_between (fun _ => trivial) _ _ trivial
  coords bare := by
    intro entry member
    rcases QubitMap.mem_insertAll member with none | declared
    · cases none
    · exact bare_declaredCoords bare declared

end Layer

/-- Whether layers hold no numbers if others, from which they are made, hold none. -/
def AddsNoNumbers (before after : List Layer) : Prop :=
  Layer.AllNumberFree before → Layer.AllNumberFree after

end StabilizerLayers
