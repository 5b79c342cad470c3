import StabilizerLayers.Lexicographic

/-!
# Sorting by a key

A stable sort of lists by a key, which is a list of numbers compared from the
front. Entries with equal keys stay in their order.
-/

namespace StabilizerLayers

variable {α : Type}

/-- The entries by ascending key. -/
def sortByKey (key : α → List Nat) (entries : List α) : List α :=
  entries.mergeSort fun first second => !Lexicographic.numbersBefore (key second) (key first)

end StabilizerLayers
