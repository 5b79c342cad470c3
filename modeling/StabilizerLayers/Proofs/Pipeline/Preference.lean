import Mathlib.Data.List.MinMax
import Mathlib.Data.Prod.Lex
import StabilizerLayers.Pipeline.Settling
import StabilizerLayers.Proofs.Ordering

/-!
# Preferred circuits

Circuits are compared by the number of instructions and, where that is the same, by their
lines. The rank of a circuit puts both together, and one circuit precedes another if its rank
is below that of the other. Of some circuits the first one of least rank is preferred.
-/

namespace StabilizerLayers

namespace Circuit

variable {first second : Circuit}

/-! ### Ranks -/

/-- The number of instructions, then the lines. -/
def rank (circuit : Circuit) : ℕ ×ₗ List String :=
  toLex (circuit.instructionCount, circuit.listing)

/-- Circuits precede others of higher rank. -/
theorem precedes_iff : first.precedes second = true ↔ first.rank < second.rank := by
  rw [rank, rank, Prod.Lex.toLex_lt_toLex]
  simp only [precedes, Bool.or_eq_true, Bool.and_eq_true, decide_eq_true_eq, beq_iff_eq,
    Lexicographic.textsBefore_iff]

/-- Circuits do not precede others of the same rank or a lower one. -/
theorem precedes_eq_false_iff : first.precedes second = false ↔ second.rank ≤ first.rank := by
  rw [← not_lt, ← precedes_iff, Bool.not_eq_true]

/-! ### Preference -/

/-- The preferred one of two circuits; the first unless the second precedes it. -/
def preferred (best candidate : Circuit) : Circuit :=
  if candidate.precedes best then candidate else best

/-- The circuit of the preferred output is the preferred circuit. -/
theorem circuit_foldl_preferred (start : Output) (outputs : List Output) :
    (outputs.foldl Output.preferred start).circuit =
      (outputs.map Output.circuit).foldl preferred start.circuit := by
  induction outputs generalizing start with
  | nil => rfl
  | cons candidate rest inductionHypothesis =>
    rw [List.foldl_cons, inductionHypothesis, List.map_cons, List.foldl_cons]
    congr 1
    rw [Output.preferred, preferred]
    split <;> rfl

/-- The preferred one of some circuits is the first one of least rank. -/
theorem argmin_rank (start : Circuit) (circuits : List Circuit) :
    (start :: circuits).argmin rank = some (circuits.foldl preferred start) := by
  induction circuits generalizing start with
  | nil => rfl
  | cons candidate rest inductionHypothesis =>
    rw [List.foldl_cons, ← inductionHypothesis]
    have step : List.argAux (fun one other : Circuit => one.rank < other.rank) (some start)
        candidate = some (preferred start candidate) := by
      simp only [List.argAux, preferred, precedes_iff]
      split <;> rfl
    rw [List.argmin, List.argmin, List.foldl_cons, List.foldl_cons, List.foldl_cons]
    exact congrArg (rest.foldl _) step

/-- The preferred one of some circuits is one of them, and none has a lower rank. -/
theorem foldl_preferred_least (start : Circuit) (circuits : List Circuit) :
    circuits.foldl preferred start ∈ start :: circuits ∧
      ∀ other ∈ start :: circuits, (circuits.foldl preferred start).rank ≤ other.rank :=
  ⟨List.argmin_mem (argmin_rank start circuits), fun _ member =>
    List.le_of_mem_argmin member (argmin_rank start circuits)⟩

/-- A circuit that precedes all others is the preferred one. -/
theorem foldl_preferred_eq {start best : Circuit} {circuits : List Circuit}
    (member : best ∈ start :: circuits)
    (precedes : ∀ other ∈ start :: circuits, other ≠ best → best.precedes other = true) :
    circuits.foldl preferred start = best := by
  obtain ⟨listed, least⟩ := foldl_preferred_least start circuits
  by_contra different
  have below := precedes_iff.mp (precedes _ listed different)
  exact below.not_ge (least best member)

/-- The preferred circuit of a cycle is in it. -/
theorem foldl_preferred_mem (first : Circuit) (rest : List Circuit) :
    (first :: rest).foldl preferred first ∈ first :: rest := by
  have listed := (foldl_preferred_least first (first :: rest)).1
  simpa only [List.mem_cons, or_self_left] using listed

/-- The last of different circuits is the preferred one only if it precedes all the
    others. -/
theorem precedes_of_chosen_last {first last : Circuit} {rest : List Circuit}
    (different : (first :: rest).Nodup) (isLast : (first :: rest).getLast? = some last)
    (chosen : (first :: rest).foldl preferred first = last) {other : Circuit}
    (member : other ∈ first :: rest) (distinct : other ≠ last) : last.precedes other = true := by
  obtain ⟨start, split⟩ := List.getLast?_eq_some_iff.mp isLast
  rw [split] at different chosen
  have notIn : last ∉ start := fun listed =>
    (List.nodup_append.mp different).2.2 last listed last (by simp) rfl
  have inStart : other ∈ start := by
    rw [split] at member
    rcases List.mem_append.mp member with listed | same
    · exact listed
    · exact absurd (List.mem_singleton.mp same) distinct
  have firstIn : first ∈ start := by
    obtain ⟨head, tail, rfl⟩ := List.exists_cons_of_ne_nil (List.ne_nil_of_mem inStart)
    rw [List.cons_append] at split
    exact (List.cons.inj split).1 ▸ .head _
  obtain ⟨listed, least⟩ := foldl_preferred_least first start
  -- The last circuit is compared with the preferred one of those before it.
  rw [List.foldl_append, List.foldl_cons, List.foldl_nil, preferred] at chosen
  split at chosen
  · rename_i below
    exact precedes_iff.mpr ((precedes_iff.mp below).trans_le (least other (.tail _ inStart)))
  · rw [chosen] at listed
    rcases List.mem_cons.mp listed with same | later
    · exact absurd (same ▸ firstIn) notIn
    · exact absurd later notIn

end Circuit

end StabilizerLayers
