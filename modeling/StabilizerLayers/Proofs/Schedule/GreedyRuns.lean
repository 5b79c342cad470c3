import Mathlib.Data.List.Chain
import Mathlib.Data.List.Flatten
import Mathlib.Data.List.Nodup
import StabilizerLayers.Schedule.Grouping

/-!
# Runs are greedy

The runs of some units cut them into parts in which no qubit belongs to two units. Each part
is as long as it can be: the first unit behind it shares a qubit with one of its units.

There is no other such cut. A part that starts where a run starts is that run, since a shorter
one could go on, and in a longer one some qubit would belong to two units.
-/

namespace StabilizerLayers

/-- Whether no qubit belongs to two units. -/
def Spread (units : List (List Qubit)) : Prop := units.Pairwise List.Disjoint

instance : DecidablePred Spread := fun units =>
  -- looks through the units only, not through all qubits
  haveI : DecidableRel (@List.Disjoint Qubit) := fun first second =>
    List.decidableBAll (fun id => id ∉ second) first
  inferInstanceAs (Decidable (units.Pairwise List.Disjoint))

variable {α : Type}

/-! ### Parts of a list of units -/

namespace Runs

section

variable (qubits : α → List Qubit)

/-- Whether a unit shares a qubit with one of some units. -/
def Clashes (units : List α) (next : α) : Prop :=
  ∃ unit ∈ units, ∃ id ∈ qubits unit, id ∈ qubits next

/-- Whether a part cannot go on with the units behind it. -/
def Closes (part rest : List α) : Prop := ∀ next ∈ rest.head?, Clashes qubits part next

/-- Whether each part has units, has no qubit in two of them, and cannot go on. -/
structure Greedy (parts : List (List α)) : Prop where
  inhabited : ∀ part ∈ parts, part ≠ []
  spread : ∀ part ∈ parts, Spread (part.map qubits)
  /-- The first unit of a part shares a qubit with a unit of the part before. -/
  closed : parts.IsChain (Closes qubits)

end

variable {qubits : α → List Qubit}

/-- Units behind spread ones must not clash with them. -/
theorem spread_append {first second : List α} :
    Spread ((first ++ second).map qubits) ↔
      Spread (first.map qubits) ∧ Spread (second.map qubits) ∧
        ∀ next ∈ second, ¬ Clashes qubits first next := by
  rw [Spread, List.map_append, List.pairwise_append]
  refine and_congr_right' (and_congr_right' ?_)
  rw [List.forall_mem_map]
  constructor
  · rintro apart next member ⟨unit, earlier, id, here, there⟩
    exact apart unit earlier (qubits next) (List.mem_map_of_mem member) here there
  · intro free unit earlier
    rw [List.forall_mem_map]
    intro next member id here there
    exact free next member ⟨unit, earlier, id, here, there⟩

/-- A spread list goes on into some units until one of them clashes. -/
theorem exists_closed (start units : List α) (spread : Spread (start.map qubits)) :
    ∃ taken rest, units = taken ++ rest ∧ Spread ((start ++ taken).map qubits) ∧
      Closes qubits (start ++ taken) rest := by
  induction units generalizing start with
  | nil => exact ⟨[], [], rfl, by simpa using spread, by simp [Closes]⟩
  | cons unit later inductionHypothesis =>
    by_cases clash : Clashes qubits start unit
    · refine ⟨[], unit :: later, rfl, by simpa using spread, ?_⟩
      simpa [Closes] using clash
    · have longer : Spread ((start ++ [unit]).map qubits) := by
        refine spread_append.mpr ⟨spread, List.pairwise_singleton _ _, ?_⟩
        simpa using clash
      obtain ⟨taken, rest, rfl, apart, closed⟩ := inductionHypothesis (start ++ [unit]) longer
      rw [List.append_assoc] at apart closed
      exact ⟨unit :: taken, rest, rfl, apart, closed⟩

/-- A first part is told by what follows as a whole. -/
theorem greedy_cons {part : List α} {parts : List (List α)} :
    Greedy qubits (part :: parts) ↔
      part ≠ [] ∧ Spread (part.map qubits) ∧ Closes qubits part parts.flatten ∧
        Greedy qubits parts := by
  have behind (inhabited : ∀ other ∈ parts, other ≠ []) :
      (∀ following ∈ parts.head?, Closes qubits part following) ↔
        Closes qubits part parts.flatten := by
    cases parts with
    | nil => simp [Closes]
    | cons following others =>
      obtain ⟨unit, rest, rfl⟩ := List.exists_cons_of_ne_nil (inhabited following (.head _))
      simp [Closes]
  constructor
  · rintro ⟨inhabited, spread, closed⟩
    obtain ⟨here, later⟩ := List.forall_mem_cons.mp inhabited
    obtain ⟨apart, laterApart⟩ := List.forall_mem_cons.mp spread
    obtain ⟨ends, laterEnds⟩ := List.isChain_cons.mp closed
    exact ⟨here, apart, (behind later).mp ends, later, laterApart, laterEnds⟩
  · rintro ⟨here, apart, ends, later, laterApart, laterEnds⟩
    exact ⟨List.forall_mem_cons.mpr ⟨here, later⟩, List.forall_mem_cons.mpr ⟨apart, laterApart⟩,
      List.isChain_cons.mpr ⟨(behind later).mpr ends, laterEnds⟩⟩

/-! ### Runs -/

/-- The qubits seen tell whether the next unit clashes with the run in progress. -/
theorem any_contains_iff {seen : List Qubit} {current : List α} {next : α}
    (noted : ∀ id, id ∈ seen ↔ ∃ unit ∈ current, id ∈ qubits unit) :
    (qubits next).any seen.contains = true ↔ Clashes qubits current.reverse next := by
  simp only [List.any_eq_true, List.contains_iff_mem, noted, Clashes, List.mem_reverse]
  constructor
  · rintro ⟨id, there, unit, member, here⟩
    exact ⟨unit, member, id, here, there⟩
  · rintro ⟨unit, member, id, here, there⟩
    exact ⟨id, there, unit, member, here⟩

/-- No units have no runs. -/
@[simp]
theorem runs_nil (qubits : α → List Qubit) : runs qubits [] = [] := rfl

/-- The first unit opens a run. -/
theorem runs_cons (unit : α) (rest : List α) :
    runs qubits (unit :: rest) = runsFrom qubits (qubits unit) [unit] rest := by
  simp [runs, runsFrom]

/-- The run in progress takes units as long as they do not clash. -/
theorem runsFrom_append {seen : List Qubit} {current taken rest : List α}
    (noted : ∀ id, id ∈ seen ↔ ∃ unit ∈ current, id ∈ qubits unit) (begun : current ≠ [])
    (spread : Spread ((current.reverse ++ taken).map qubits))
    (closed : Closes qubits (current.reverse ++ taken) rest) :
    runsFrom qubits seen current (taken ++ rest) =
      (current.reverse ++ taken) :: runs qubits rest := by
  induction taken generalizing seen current with
  | nil =>
    rw [List.append_nil] at closed ⊢
    cases rest with
    | nil => simp [runsFrom, begun]
    | cons next later =>
      have clash := (any_contains_iff noted).mpr (closed next rfl)
      rw [List.nil_append, runsFrom, if_pos clash, runs_cons]
  | cons unit later inductionHypothesis =>
    have grown : current.reverse ++ unit :: later = (unit :: current).reverse ++ later := by simp
    have free : ¬ (qubits unit).any seen.contains = true := by
      rw [any_contains_iff noted]
      exact (spread_append.mp spread).2.2 unit (.head _)
    rw [grown] at spread closed ⊢
    rw [List.cons_append, runsFrom, if_neg free]
    refine inductionHypothesis (fun id => ?_) (List.cons_ne_nil _ _) spread closed
    simp [noted]

/-- A spread part that cannot go on is the first run. -/
theorem runs_append {part rest : List α} (inhabited : part ≠ [])
    (spread : Spread (part.map qubits)) (closed : Closes qubits part rest) :
    runs qubits (part ++ rest) = part :: runs qubits rest := by
  obtain ⟨unit, taken, rfl⟩ := List.exists_cons_of_ne_nil inhabited
  rw [List.cons_append, runs_cons]
  exact runsFrom_append (by simp) (List.cons_ne_nil _ _) spread closed

/-- Parts that cannot go on are the runs of their units. -/
theorem Greedy.runs_flatten {parts : List (List α)} (greedy : Greedy qubits parts) :
    runs qubits parts.flatten = parts := by
  induction parts with
  | nil => rfl
  | cons part parts inductionHypothesis =>
    obtain ⟨inhabited, spread, closed, later⟩ := greedy_cons.mp greedy
    rw [List.flatten_cons, runs_append inhabited spread closed, inductionHypothesis later]

/-- Units that keep their qubits can take the place of others. -/
theorem Greedy.map {parts : List (List α)} (greedy : Greedy qubits parts) (change : α → α)
    (same : ∀ unit id, id ∈ qubits (change unit) ↔ id ∈ qubits unit) :
    Greedy qubits (parts.map (List.map change)) := by
  refine ⟨?_, ?_, (List.isChain_map _).mpr (greedy.closed.imp fun part following closed => ?_)⟩
  · rw [List.forall_mem_map]
    intro part member
    simpa using greedy.inhabited part member
  · rw [List.forall_mem_map]
    intro part member
    have spread := greedy.spread part member
    rw [Spread, List.pairwise_map] at spread ⊢
    refine List.pairwise_map.mpr (spread.imp fun {earlier later} apart id here there => ?_)
    exact apart ((same earlier id).mp here) ((same later id).mp there)
  · intro next first
    rw [List.head?_map] at first
    obtain ⟨unit, opens, rfl⟩ := Option.map_eq_some_iff.mp first
    obtain ⟨other, member, id, here, there⟩ := closed unit opens
    exact ⟨change other, List.mem_map_of_mem member, id, (same other id).mpr here,
      (same unit id).mpr there⟩

/-- All units can be cut into parts that cannot go on. -/
theorem exists_greedy (units : List α) :
    ∃ parts, parts.flatten = units ∧ Greedy qubits parts := by
  -- The first part is what can be taken until a unit clashes; the units behind it are fewer.
  induction size : units.length using Nat.strongRecOn generalizing units with
  | ind count inductionHypothesis =>
    cases units with
    | nil => exact ⟨[], rfl, nofun, nofun, .nil⟩
    | cons unit later =>
      have alone : Spread ([unit].map qubits) := List.pairwise_singleton _ _
      obtain ⟨taken, rest, rfl, spread, closed⟩ := exists_closed [unit] later alone
      have shorter : rest.length < count := by
        rw [← size, List.length_cons, List.length_append]
        omega
      obtain ⟨parts, rfl, greedy⟩ := inductionHypothesis rest.length shorter rest rfl
      refine ⟨([unit] ++ taken) :: parts, rfl, ?_⟩
      exact greedy_cons.mpr ⟨List.cons_ne_nil _ _, spread, closed, greedy⟩

/-- Runs have units, have no qubit in two of them and cannot go on. -/
theorem greedy_runs (units : List α) : Greedy qubits (runs qubits units) := by
  obtain ⟨parts, rfl, greedy⟩ : ∃ parts, parts.flatten = units ∧ Greedy qubits parts :=
    exists_greedy units
  rwa [greedy.runs_flatten]

end Runs

variable {qubits : α → List Qubit}

/-- Runs put together are the units. -/
theorem flatten_runs (units : List α) : (runs qubits units).flatten = units := by
  obtain ⟨parts, rfl, greedy⟩ : ∃ parts, parts.flatten = units ∧ Runs.Greedy qubits parts :=
    Runs.exists_greedy units
  rw [greedy.runs_flatten]

/-- A run names no qubit twice, if no unit does. -/
theorem nodup_of_mem_runs {units run : List α} (single : ∀ unit ∈ units, (qubits unit).Nodup)
    (member : run ∈ runs qubits units) : (run.flatMap qubits).Nodup := by
  have spread := (Runs.greedy_runs units).spread run member
  rw [Spread, List.pairwise_map] at spread
  refine List.nodup_flatMap.mpr ⟨fun unit listed => single unit ?_, spread⟩
  have held : unit ∈ (runs qubits units).flatten := List.mem_flatten.mpr ⟨run, member, listed⟩
  rwa [flatten_runs] at held

/-- Where a run ends depends on the qubits alone. -/
theorem runs_map (change : α → α) (same : ∀ unit id, id ∈ qubits (change unit) ↔ id ∈ qubits unit)
    (units : List α) :
    runs qubits (units.map change) = (runs qubits units).map (List.map change) := by
  have moved := (Runs.greedy_runs units).map change same
  rw [← moved.runs_flatten, ← List.map_flatten, flatten_runs]

/-- The runs of some units are those parts of them, one behind the other, that have units, have
    no qubit in two of them and cannot go on. -/
theorem runs_eq_iff {units : List α} {parts : List (List α)} :
    runs qubits units = parts ↔ parts.flatten = units ∧ Runs.Greedy qubits parts := by
  constructor
  · rintro rfl
    exact ⟨flatten_runs units, Runs.greedy_runs units⟩
  · rintro ⟨rfl, greedy⟩
    exact greedy.runs_flatten

-- A qubit that a unit names twice does not end a run, and a unit without qubits never does.
example :
    runs (fun ids => ids) [[0, 0], [1], [], [1, 2], [0], [2]] =
      [[[0, 0], [1], []], [[1, 2], [0]], [[2]]] := by
  decide

end StabilizerLayers
