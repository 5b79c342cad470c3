import StabilizerLayers.Proofs.Trace.Reading

/-!
# Products side by side

A product starts and ends with an operator, and a combiner joins any two of its
neighbouring targets. Products can therefore be written one after the other and
cut apart again.
-/

namespace StabilizerLayers

/-- A product consists of operators and combiners. -/
theorem isPauli_or_combiner {factors : List Target} (whole : isProduct factors = true)
    {target : Target} (member : target ∈ factors) :
    (target.isPauli || target == .combiner) = true := by
  fun_induction isProduct factors with
  | case1 basis id inverted =>
    obtain rfl := List.mem_singleton.mp member
    rfl
  | case2 basis id inverted rest inductionHypothesis =>
    rcases List.mem_cons.mp member with rfl | later
    · rfl
    · rcases List.mem_cons.mp later with rfl | further
      · rfl
      · exact inductionHypothesis whole further
  | case3 => cases whole

/-- A product starts with an operator. -/
theorem isPauli_of_head? {factors : List Target} (whole : isProduct factors = true)
    {target : Target} (first : target ∈ factors.head?) : target.isPauli = true := by
  fun_cases isProduct factors with
  | case1 basis id inverted =>
    obtain rfl : .pauli basis id inverted = target := by simpa using first
    rfl
  | case2 basis id inverted rest =>
    obtain rfl : .pauli basis id inverted = target := by simpa using first
    rfl
  | case3 => simp_all [isProduct]

/-- A product ends with an operator. -/
theorem isPauli_of_getLast? {factors : List Target} (whole : isProduct factors = true)
    {target : Target} (last : target ∈ factors.getLast?) : target.isPauli = true := by
  fun_induction isProduct factors with
  | case1 basis id inverted =>
    obtain rfl : .pauli basis id inverted = target := by simpa using last
    rfl
  | case2 basis id inverted rest inductionHypothesis =>
    refine inductionHypothesis whole ?_
    cases rest with
    | nil => simp [isProduct] at whole
    | cons next later => simpa using last
  | case3 => simp at whole

/-- A combiner joins any two neighbours of a product. -/
theorem isChain_of_isProduct {factors : List Target} (whole : isProduct factors = true) :
    factors.IsChain fun earlier later => Target.joins earlier later = true := by
  fun_induction isProduct factors with
  | case1 => exact .singleton _
  | case2 basis id inverted rest inductionHypothesis =>
    refine .cons_cons rfl ?_
    cases rest with
    | nil => exact .singleton _
    | cons next later => exact .cons_cons rfl (inductionHypothesis whole)
  | case3 => simp at whole

/-- A product has one operator more than combiners. -/
theorem countP_isPauli_of_isProduct {factors : List Target} (whole : isProduct factors = true) :
    factors.countP Target.isPauli = factors.count .combiner + 1 := by
  fun_induction isProduct factors with
  | case1 => simp [Target.isPauli]
  | case2 basis id inverted rest inductionHypothesis =>
    simp [List.countP_cons, Target.isPauli, inductionHypothesis whole]
  | case3 => simp at whole

/-- No combiner joins what ends and what starts with an operator. -/
theorem joins_of_isPauli {earlier later : Target} (ends : earlier.isPauli = true)
    (starts : later.isPauli = true) : Target.joins earlier later = false := by
  cases earlier <;> cases later <;> simp_all [Target.isPauli, Target.joins]

/-- A product is cut nowhere. -/
theorem products_of_isProduct {factors : List Target} (whole : isProduct factors = true) :
    products factors = [factors] := by
  refine List.splitBy_of_isChain ?_ (isChain_of_isProduct whole)
  rintro rfl
  simp [isProduct] at whole

namespace FormsProducts

variable {first second : List Target}

/-- Products side by side start with an operator. -/
theorem isPauli_of_head? (formed : FormsProducts first) {target : Target}
    (starts : target ∈ first.head?) : target.isPauli = true := by
  have nonempty : first ≠ [] := by
    rintro rfl
    simp at starts
  have cut : first.splitBy Target.joins ≠ [] := List.splitBy_ne_nil.mpr nonempty
  have member := List.head_mem cut
  refine StabilizerLayers.isPauli_of_head? (formed _ member) ?_
  rw [List.head?_eq_some_head (List.ne_nil_of_mem_splitBy member), List.head_head_splitBy _ nonempty,
    ← List.head?_eq_some_head nonempty]
  exact starts

/-- Products side by side end with an operator. -/
theorem isPauli_of_getLast? (formed : FormsProducts first) {target : Target}
    (ends : target ∈ first.getLast?) : target.isPauli = true := by
  have nonempty : first ≠ [] := by
    rintro rfl
    simp at ends
  have cut : first.splitBy Target.joins ≠ [] := List.splitBy_ne_nil.mpr nonempty
  have member := List.getLast_mem cut
  refine StabilizerLayers.isPauli_of_getLast? (formed _ member) ?_
  rw [List.getLast?_eq_some_getLast (List.ne_nil_of_mem_splitBy member),
    List.getLast_getLast_splitBy _ nonempty, ← List.getLast?_eq_some_getLast nonempty]
  exact ends

/-- Products that are written one after the other are cut apart again. -/
theorem products_append (formed : FormsProducts first) (next : FormsProducts second) :
    products (first ++ second) = products first ++ products second :=
  List.splitBy_append fun _ ends _ starts =>
    joins_of_isPauli (formed.isPauli_of_getLast? ends) (next.isPauli_of_head? starts)

/-- Products one after the other are products side by side. -/
theorem append (formed : FormsProducts first) (next : FormsProducts second) :
    FormsProducts (first ++ second) := by
  intro factors member
  rw [products_append formed next] at member
  rcases List.mem_append.mp member with here | there
  · exact formed factors here
  · exact next factors there

/-- One product. -/
theorem of_isProduct {factors : List Target} (whole : isProduct factors = true) :
    FormsProducts factors := by
  intro cut member
  rw [products_of_isProduct whole] at member
  exact (List.mem_singleton.mp member) ▸ whole

end FormsProducts

end StabilizerLayers
