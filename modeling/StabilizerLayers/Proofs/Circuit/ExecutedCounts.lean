import Mathlib.Algebra.BigOperators.Group.List.Basic
import Mathlib.Algebra.GroupWithZero.Nat
import StabilizerLayers.Proofs.Circuit.Slots

/-!
# Executed counts

Executed instructions are counted without writing repetitions out: the count of a body is
multiplied. Every sum and every product on the way stops at the largest 64-bit number.

Stopping early loses nothing. A sum of stopped counts is the stopped sum, and a product with
a stopped count is the stopped product, where no repetition at all gives nothing however
large the count is. So the count of a circuit is that of its stream, and circuits with one
stream have one count, however their blocks are nested.
-/

namespace StabilizerLayers

/-! ### Exact counts -/

/-- A repeated stream counts as often as it is repeated. -/
theorem sum_map_repeated (measure : Instruction → Nat) (times : Nat)
    (instructions : List Instruction) :
    ((List.replicate times instructions).flatten.map measure).sum =
      times * (instructions.map measure).sum := by
  rw [List.map_flatten, List.map_replicate, List.sum_flatten, List.map_replicate,
    List.sum_replicate, smul_eq_mul]

/-- Counting one for each instruction that passes a test counts these instructions. -/
theorem sum_map_test (test : Instruction → Bool) (instructions : List Instruction) :
    (instructions.map fun instruction => if test instruction then 1 else 0).sum =
      instructions.countP test := by
  have ones : (instructions.flatMap fun instruction => [instruction]).countP test =
      (instructions.map fun instruction => [instruction].countP test).sum := List.countP_flatMap
  rw [List.flatMap_singleton'] at ones
  simp only [ones, List.countP_singleton]

/-! ### Stopped counts -/

namespace Tally

/-- A sum of stopped counts is the stopped sum. -/
theorem add_congr {first second one two : Nat} (firstSame : min limit first = min limit one)
    (secondSame : min limit second = min limit two) : add first second = min limit (one + two) := by
  rw [add]
  omega

/-- A product with a stopped count is the stopped product. -/
theorem mul_min (times count : Nat) : mul times (min limit count) = min limit (times * count) := by
  rw [mul]
  rcases Nat.le_total count limit with small | large
  · rw [Nat.min_eq_right small]
  · rw [Nat.min_eq_left large]
    rcases Nat.eq_zero_or_pos times with rfl | some
    · simp
    · have atLimit : limit ≤ times * limit := Nat.le_mul_of_pos_left limit some
      have beyond : limit ≤ times * count := atLimit.trans (Nat.mul_le_mul_left times large)
      rw [Nat.min_eq_left atLimit, Nat.min_eq_left beyond]

end Tally

mutual

/-- An operation counts what its stream counts, as far as the count can go. -/
theorem Operation.executed_eq_min (measure : Instruction → Nat) (operation : Operation) :
    min Tally.limit (operation.executed measure) =
      min Tally.limit (operation.stream.map measure).sum := by
  cases operation with
  | single instruction => rfl
  | block repetitions body =>
    rw [Operation.executed, Operation.stream, Operation.executedAll_eq_min, Tally.mul_min,
      sum_map_repeated, ← Nat.min_assoc, Nat.min_self]

/-- Operations count what their stream counts, as far as the count can go. -/
theorem Operation.executedAll_eq_min (measure : Instruction → Nat) (operations : List Operation) :
    Operation.executedAll measure operations =
      min Tally.limit ((Operation.streamAll operations).map measure).sum := by
  cases operations with
  | nil => rfl
  | cons first rest =>
    have later : min Tally.limit (Operation.executedAll measure rest) =
        min Tally.limit ((Operation.streamAll rest).map measure).sum := by
      rw [Operation.executedAll_eq_min, ← Nat.min_assoc, Nat.min_self]
    rw [Operation.executedAll, Operation.streamAll, List.map_append, List.sum_append]
    exact Tally.add_congr (first.executed_eq_min measure) later

end

namespace Circuit

variable (circuit : Circuit)

/-- The ticks of a circuit are those of its stream, as far as the count can go. -/
theorem tickCount_eq_min :
    circuit.tickCount = min Tally.limit
      ((Operation.streamAll circuit).countP fun instruction => instruction.applies .tick) := by
  rw [tickCount, Operation.executedAll_eq_min]
  exact congrArg (min Tally.limit) (sum_map_test _ _)

/-- The records of a circuit are those of its stream, as far as the count can go. -/
theorem recordCount_eq_min :
    circuit.recordCount = min Tally.limit
      ((Operation.streamAll circuit).map Instruction.recordCount).sum :=
  Operation.executedAll_eq_min _ circuit

/-- The executed counts are exact as far as they can go. In particular a block without
    repetitions counts nothing, however much its body counts, and the nesting of blocks does
    not matter. -/
theorem counts_of_stream :
    circuit.tickCount = min Tally.limit
        ((Operation.streamAll circuit).countP fun instruction => instruction.applies .tick) ∧
      circuit.recordCount = min Tally.limit
        ((Operation.streamAll circuit).map Instruction.recordCount).sum ∧
      (∀ body, tickCount [.block 0 body] = 0 ∧ recordCount [.block 0 body] = 0) ∧
      ∀ other : Circuit, Operation.streamAll other = Operation.streamAll circuit →
        other.tickCount = circuit.tickCount ∧ other.recordCount = circuit.recordCount := by
  refine ⟨circuit.tickCount_eq_min, circuit.recordCount_eq_min, fun body => ?_, ?_⟩
  · have still : Operation.streamAll [.block 0 body] = [] := rfl
    rw [tickCount_eq_min, recordCount_eq_min, still]
    exact ⟨rfl, rfl⟩
  · intro other same
    rw [tickCount_eq_min, tickCount_eq_min, recordCount_eq_min, recordCount_eq_min, same]
    exact ⟨rfl, rfl⟩

/-- A block that counts as much as can be counted. -/
def overfull : Circuit :=
  [.block 18446744073709551615 [.single .tick, .single (.onQubits (.measure .Z) [0, 1])]]

/-- Three rounds of two rounds, behind a body that does not run, are six rounds. -/
theorem counts_of_stream_nested :
    overfull.tickCount = Tally.limit ∧ overfull.recordCount = Tally.limit ∧
      tickCount [.block 0 overfull, .block 3 [.block 2 [.single .tick]]] = 6 := by
  obtain ⟨-, -, -, regrouped⟩ := counts_of_stream [.block 6 [.single .tick]]
  refine ⟨by decide +kernel, by decide +kernel, ?_⟩
  exact (regrouped _ rfl).1.trans (by decide +kernel)

end Circuit

end StabilizerLayers
