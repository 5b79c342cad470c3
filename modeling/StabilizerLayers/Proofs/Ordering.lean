import Mathlib.Data.List.Sort
import Mathlib.Data.String.Basic
import StabilizerLayers.SortByKey

/-!
# Orders of numbers and texts

Lists of numbers, texts and lists of texts are compared by Boolean tests. The tests decide
the usual linear orders, and what is known of these holds of the tests. Sorting by a key is
sorting by the order of the keys.
-/

namespace StabilizerLayers

/-! ### Tests -/

namespace Lexicographic

/-- Lists of numbers are compared by their linear order. -/
theorem numbersBefore_iff {first second : List Nat} :
    numbersBefore first second = true ↔ first < second := by
  simp only [numbersBefore, List.lex_eq_true_iff_lex, decide_eq_true_eq]
  rfl

/-- Texts are compared by their linear order. -/
theorem textBefore_iff {first second : String} :
    textBefore first second = true ↔ first < second := by
  simp only [textBefore, List.lex_eq_true_iff_lex, decide_eq_true_eq]
  rfl

/-- Lists of texts are compared by their linear order. -/
theorem textsBefore_iff {first second : List String} :
    textsBefore first second = true ↔ first < second := by
  simp only [textsBefore, List.lex_eq_true_iff_lex, textBefore_iff]
  rfl

end Lexicographic

/-! ### Sorting -/

section Sorting

variable {α : Type} {key : α → List Nat}

/-- An entry may stand before another if its key is not above that of the other. -/
theorem not_numbersBefore_iff {first second : α} :
    (!Lexicographic.numbersBefore (key second) (key first)) = true ↔ key first ≤ key second := by
  rw [Bool.not_eq_true', ← Bool.not_eq_true, Lexicographic.numbersBefore_iff, not_lt]

/-- Sorting neither adds nor loses an entry. -/
theorem sortByKey_perm (key : α → List Nat) (entries : List α) :
    (sortByKey key entries).Perm entries :=
  List.mergeSort_perm entries _

/-- Sorting puts the keys in ascending order. -/
theorem pairwise_sortByKey (key : α → List Nat) (entries : List α) :
    (sortByKey key entries).Pairwise fun earlier later => key earlier ≤ key later := by
  rw [sortByKey]
  refine (List.pairwise_mergeSort ?_ ?_ entries).imp not_numbersBefore_iff.mp
  · intro first second third below above
    rw [not_numbersBefore_iff] at below above ⊢
    exact le_trans below above
  · intro first second
    rw [Bool.or_eq_true, not_numbersBefore_iff, not_numbersBefore_iff]
    exact le_total (key first) (key second)

/-- Sorting leaves sorted entries as they are. -/
theorem sortByKey_of_pairwise {entries : List α}
    (ascending : entries.Pairwise fun earlier later => key earlier ≤ key later) :
    sortByKey key entries = entries :=
  List.mergeSort_of_pairwise (ascending.imp not_numbersBefore_iff.mpr)

end Sorting

end StabilizerLayers
