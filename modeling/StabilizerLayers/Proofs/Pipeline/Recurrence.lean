import Mathlib.Data.List.TakeWhile
import StabilizerLayers.Proofs.Circuit.Arguments
import StabilizerLayers.Proofs.Pipeline.Preference

/-!
# Circuits that come back

Canonicalization follows the outputs of the pipeline until one of them comes back,
for nine runs at most. A circuit is its own canonical form exactly if runs on it
come back to it in time and it precedes what they reach on the way.

So canonicalizing twice is canonicalizing once wherever the output stops changing
in time, but not always: what moves by a few layers in one run can take more than
nine runs to arrive.

Outputs are compared with arguments as numbers. The comparison tells the circuits
that runs reach apart unless an argument is not a number, or a zero changes its
sign between them.
-/

namespace StabilizerLayers

namespace Config

/-- The circuit after a number of runs, each on the output of the one before. -/
def runs (config : Config) : (count : Nat) → Circuit → Except TransformError Circuit
  | 0, circuit => .ok circuit
  | count + 1, circuit =>
    match config.runOnce circuit with
    | .error fault => .error fault
    | .ok output => config.runs count output.circuit

/-- Whether circuits that runs on a circuit reach are the same only if they are
    equal. -/
def TellsApart (config : Config) (circuit : Circuit) : Prop :=
  ∀ ⦃earlier later : Nat⦄ ⦃first second : Circuit⦄, config.runs earlier circuit = .ok first →
    config.runs later circuit = .ok second →
    (Operation.sameAll first second = true ↔ first = second)

/-- Whether one of the first eight outputs is left alone by the next run. -/
def StopsChanging (config : Config) (circuit : Circuit) : Prop :=
  ∃ count final, 0 < count ∧ count ≤ maxOutputs ∧ config.runs count circuit = .ok final ∧
    config.runs (count + 1) circuit = .ok final

/-- Whether nine runs at most come back to a circuit, and the circuit precedes all
    that they reach on the way unless all nine are needed. -/
def Recurs (config : Config) (circuit : Circuit) : Prop :=
  ∃ period, 0 < period ∧ period ≤ maxOutputs + 1 ∧ config.runs period circuit = .ok circuit ∧
    ∀ count between, 0 < count → count < period → config.runs count circuit = .ok between →
      between ≠ circuit ∧ (period ≤ maxOutputs → circuit.precedes between = true)

variable {config : Config} {circuit : Circuit}

/-! ### Runs in a row -/

/-- Runs go on from what runs have reached. -/
theorem runs_add {count : Nat} {middle : Circuit}
    (reached : config.runs count circuit = .ok middle) (more : Nat) :
    config.runs (count + more) circuit = config.runs more middle := by
  induction count generalizing circuit with
  | zero =>
    obtain rfl := Except.ok.inj reached
    rw [Nat.zero_add]
  | succ count inductionHypothesis =>
    rw [Nat.add_right_comm, runs]
    rw [runs] at reached
    split at reached
    · cases reached
    · exact inductionHypothesis reached

/-- One run more. -/
theorem runs_succ {count : Nat} {middle : Circuit} {output : Output}
    (reached : config.runs count circuit = .ok middle)
    (ran : config.runOnce middle = .ok output) :
    config.runs (count + 1) circuit = .ok output.circuit := by
  rw [runs_add reached]
  simp only [runs, ran]

/-- Runs that reach a circuit have reached one after fewer of them. -/
theorem exists_runs_of_add {count more : Nat} {final : Circuit}
    (reached : config.runs (count + more) circuit = .ok final) :
    ∃ middle, config.runs count circuit = .ok middle := by
  induction count generalizing circuit with
  | zero => exact ⟨circuit, rfl⟩
  | succ count inductionHypothesis =>
    rw [Nat.add_right_comm, runs] at reached
    rw [runs]
    split at reached
    · cases reached
    · exact inductionHypothesis reached

/-- What comes back once comes back again and again. -/
theorem runs_mul {period : Nat} (returns : config.runs period circuit = .ok circuit)
    (rounds : Nat) : config.runs (rounds * period) circuit = .ok circuit := by
  induction rounds with
  | zero => rw [Nat.zero_mul, runs]
  | succ rounds inductionHypothesis => rw [Nat.succ_mul, runs_add inductionHypothesis, returns]

/-- Runs that come back never fail. -/
theorem exists_runs_of_returns {period : Nat} (positive : 0 < period)
    (returns : config.runs period circuit = .ok circuit) (count : Nat) :
    ∃ reached, config.runs count circuit = .ok reached := by
  obtain ⟨excess, enough⟩ := Nat.exists_eq_add_of_le (Nat.le_mul_of_pos_right count positive)
  exact exists_runs_of_add (enough ▸ runs_mul returns count)

/-- Where no run fails, there is a next output, and no run on it fails. -/
theorem exists_runOnce (works : ∀ count, ∃ reached, config.runs count circuit = .ok reached) :
    ∃ next, config.runOnce circuit = .ok next ∧
      ∀ count, ∃ reached, config.runs count next.circuit = .ok reached := by
  obtain ⟨reached, once⟩ := works 1
  cases ran : config.runOnce circuit with
  | error fault => simp [runs, ran] at once
  | ok next =>
    refine ⟨next, rfl, fun count => ?_⟩
    obtain ⟨later, twice⟩ := works (count + 1)
    simp only [runs, ran] at twice
    exact ⟨later, twice⟩

/-- What is told apart on the way stays told apart from there on. -/
theorem TellsApart.of_runs (apart : config.TellsApart circuit) {count : Nat} {middle : Circuit}
    (reached : config.runs count circuit = .ok middle) : config.TellsApart middle := by
  intro earlier later first second firstReached secondReached
  rw [← runs_add reached] at firstReached secondReached
  exact apart firstReached secondReached

/-- Runs on a circuit without arguments reach circuits without arguments. -/
theorem argumentFree_of_runs {count : Nat} {reached : Circuit} (free : circuit.ArgumentFree)
    (ran : config.runs count circuit = .ok reached) : reached.ArgumentFree := by
  induction count generalizing circuit with
  | zero => exact (Except.ok.inj ran) ▸ free
  | succ count inductionHypothesis =>
    rw [runs] at ran
    split at ran
    · cases ran
    · rename_i output once
      exact inductionHypothesis (argumentFree_runOnce free once) ran

/-- Circuits without arguments are told apart. -/
theorem tellsApart_of_argumentFree (free : circuit.ArgumentFree) : config.TellsApart circuit := by
  intro earlier later first second firstReached secondReached
  exact Operation.sameAll_iff_eq (argumentFree_of_runs free firstReached)
    (argumentFree_of_runs free secondReached)

/-! ### What canonicalization looks at -/

/-- What settling has seen: outputs of successive runs, no two the same. -/
structure Seen (config : Config) (circuit : Circuit) (outputs : List Output) : Prop where
  reached : ∀ {position : Nat} {output : Output}, outputs[position]? = some output →
    config.runs (position + 1) circuit = .ok output.circuit
  different : outputs.Pairwise fun earlier later =>
    Operation.sameAll earlier.circuit later.circuit = false

/-- No output is the same exactly if there is no cycle. -/
theorem cycleFrom_eq_nil_iff {outputs : List Output} {next : Output} :
    Output.cycleFrom outputs next = [] ↔
      ∀ output ∈ outputs, Operation.sameAll output.circuit next.circuit = false := by
  simp [Output.cycleFrom, List.dropWhile_eq_nil_iff]

/-- A cycle starts with an output that is the same. -/
theorem exists_cycleFrom {outputs : List Output} {next : Output}
    (back : Output.cycleFrom outputs next ≠ []) :
    ∃ before first rest, outputs = before ++ first :: rest ∧
      Output.cycleFrom outputs next = first :: rest ∧
      Operation.sameAll first.circuit next.circuit = true := by
  obtain ⟨first, rest, cycle⟩ := List.exists_cons_of_ne_nil back
  have starts := List.head_dropWhile_not _ back
  have parts := List.takeWhile_append_dropWhile
    (p := fun output : Output => !Operation.sameAll output.circuit next.circuit) (l := outputs)
  rw [Output.cycleFrom] at cycle
  refine ⟨_, first, rest, (cycle ▸ parts).symm, cycle, ?_⟩
  simpa [Output.cycleFrom, cycle] using starts

/-- A new output joins those that were seen. -/
theorem Seen.append {outputs : List Output} {next : Output} (seen : config.Seen circuit outputs)
    (ran : config.runs (outputs.length + 1) circuit = .ok next.circuit)
    (new : Output.cycleFrom outputs next = []) : config.Seen circuit (outputs ++ [next]) where
  reached := by
    intro position output listed
    rcases Nat.lt_trichotomy position outputs.length with before | rfl | after
    · rw [List.getElem?_append_left before] at listed
      exact seen.reached listed
    · rw [List.getElem?_append_right (Nat.le_refl _), Nat.sub_self] at listed
      obtain rfl := Option.some.inj listed
      exact ran
    · rw [List.getElem?_eq_none (by simp; omega)] at listed
      cases listed
  different := by
    refine List.pairwise_append.mpr ⟨seen.different, List.pairwise_singleton _ _, ?_⟩
    intro output member later last
    rw [List.mem_singleton.mp last]
    exact cycleFrom_eq_nil_iff.mp new output member

/-- The run after some outputs that were seen. -/
theorem Seen.next {earlier : List Output} {latest next : Output}
    (seen : config.Seen circuit (earlier ++ [latest]))
    (ran : config.runOnce latest.circuit = .ok next) :
    config.runs ((earlier ++ [latest]).length + 1) circuit = .ok next.circuit := by
  have last : (earlier ++ [latest])[earlier.length]? = some latest := by simp
  have reached := runs_succ (seen.reached last) ran
  rwa [List.length_append]

/-- Settling chooses from all that it has seen: the last of nine outputs if all are
    different, or the preferred one of a cycle. -/
theorem settle_chooses {spare : Nat} {earlier : List Output} {latest output : Output}
    (seen : config.Seen circuit (earlier ++ [latest]))
    (room : (earlier ++ [latest]).length + spare = maxOutputs)
    (settled : config.settle spare earlier latest = .ok output) :
    ∃ outputs next, config.Seen circuit outputs ∧ outputs.length ≤ maxOutputs ∧
      config.runs (outputs.length + 1) circuit = .ok next.circuit ∧
      ((Output.cycleFrom outputs next = [] ∧ outputs.length = maxOutputs ∧ output = next) ∨
        (Output.cycleFrom outputs next ≠ [] ∧
          output = (Output.cycleFrom outputs next).foldl Output.preferred next)) := by
  induction spare generalizing earlier latest with
  | zero =>
    obtain ⟨next, ran, ⟨new, -, rfl⟩ | ⟨fewer, -, none, -⟩ | ⟨back, rfl⟩⟩ := settle_cases settled
    · exact ⟨_, _, seen, room.le, seen.next ran, .inl ⟨new, room, rfl⟩⟩
    · cases none
    · exact ⟨_, _, seen, room.le, seen.next ran, .inr ⟨back, rfl⟩⟩
  | succ spare inductionHypothesis =>
    obtain ⟨next, ran, ⟨-, none, -⟩ | ⟨fewer, new, less, later⟩ | ⟨back, rfl⟩⟩ :=
      settle_cases settled
    · cases none
    · obtain rfl := Nat.succ.inj less
      have joined := seen.append (seen.next ran) new
      refine inductionHypothesis joined ?_ later
      rw [List.length_append, List.length_singleton]
      omega
    · exact ⟨_, _, seen, by omega, seen.next ran, .inr ⟨back, rfl⟩⟩

end Config

/-! ### What canonicalization returns -/

namespace Config

variable {config : Config} {circuit : Circuit}

/-- Canonicalization returns what some runs reach. -/
theorem exists_runs_of_canonicalizeWith {output : Output}
    (done : circuit.canonicalizeWith config = .ok output) :
    ∃ count, config.runs count circuit = .ok output.circuit := by
  have step : ∀ before : Circuit, ∀ after : Output,
      (∃ count, config.runs count circuit = .ok before) → config.runOnce before = .ok after →
      ∃ count, config.runs count circuit = .ok after.circuit := by
    rintro before after ⟨count, reached⟩ ran
    exact ⟨count + 1, runs_succ reached ran⟩
  exact holds_canonicalizeWith step ⟨0, rfl⟩ done

/-- How canonicalization ends: it has gone through circuits that are all different,
    and one more run leads to a ninth or back to one of them. -/
structure Ending (config : Config) (circuit : Circuit) (forms : List Circuit) (next : Circuit) :
    Prop where
  reached : ∀ {position : Nat} {form : Circuit}, forms[position]? = some form →
    config.runs (position + 1) circuit = .ok form
  different : forms.Nodup
  bounded : forms.length ≤ maxOutputs
  next_reached : config.runs (forms.length + 1) circuit = .ok next

namespace Ending

variable {forms : List Circuit} {next : Circuit}

/-- After how many runs a circuit was reached. -/
theorem exists_position (ending : config.Ending circuit forms next) {form : Circuit}
    (member : form ∈ forms) :
    ∃ position, position < forms.length ∧ forms[position]? = some form ∧
      config.runs (position + 1) circuit = .ok form := by
  obtain ⟨position, listed⟩ := List.mem_iff_getElem?.mp member
  exact ⟨position, (List.getElem?_eq_some_iff.mp listed).1, listed, ending.reached listed⟩

/-- What was reached after few runs is in the list. -/
theorem getElem?_of_runs (ending : config.Ending circuit forms next) {position : Nat}
    {form : Circuit} (early : position < forms.length)
    (reached : config.runs (position + 1) circuit = .ok form) :
    forms[position]? = some form := by
  have listed := List.getElem?_eq_getElem early
  have same := (ending.reached listed).symm.trans reached
  rw [listed, Except.ok.inj same]

/-- Equal circuits were reached after the same number of runs. -/
theorem position_unique (ending : config.Ending circuit forms next) {first second : Nat}
    {form : Circuit} (firstListed : forms[first]? = some form)
    (secondListed : forms[second]? = some form) : first = second :=
  (List.getElem?_inj (List.getElem?_eq_some_iff.mp firstListed).1 ending.different).mp
    (firstListed.trans secondListed.symm)

/-- Not more circuits were reached than runs are needed to come back. -/
theorem length_le_of_returns (ending : config.Ending circuit forms next) {period : Nat}
    (positive : 0 < period) (returns : config.runs period circuit = .ok circuit) :
    forms.length ≤ period := by
  by_contra more
  have first := List.getElem?_eq_getElem (l := forms) (i := 0) (by omega)
  have again : config.runs (period + 1) circuit = .ok (forms[0]) := by
    rw [runs_add returns]
    exact ending.reached first
  have early := ending.position_unique (ending.getElem?_of_runs (by omega) again) first
  omega

/-- If the last circuit is the one that the runs started from, the next one is the
    first. -/
theorem getElem?_zero_of_returns (ending : config.Ending circuit forms next)
    (positive : 0 < forms.length) (returns : config.runs forms.length circuit = .ok circuit) :
    forms[0]? = some next := by
  refine ending.getElem?_of_runs positive ?_
  rw [Nat.zero_add, ← runs_add returns]
  exact ending.next_reached

/-- If the last circuit is the one that the runs started from, the cycle is all
    that was reached. -/
theorem before_eq_nil {before cycle : List Circuit}
    (ending : config.Ending circuit (before ++ next :: cycle) next)
    (returns : config.runs (before ++ next :: cycle).length circuit = .ok circuit) :
    before = [] := by
  have positive : 0 < (before ++ next :: cycle).length := by
    rw [List.length_append, List.length_cons]
    omega
  have first := ending.getElem?_zero_of_returns positive returns
  exact List.eq_nil_of_length_eq_zero (ending.position_unique (by simp) first)

/-- If runs on the way to a cycle do not come back, no more runs are needed to come
    back than circuits were reached. -/
theorem le_length_of_returns {before cycle : List Circuit}
    (ending : config.Ending circuit (before ++ next :: cycle) next) {period : Nat}
    (returns : config.runs period circuit = .ok circuit)
    (first : ∀ count, 0 < count → count < period → config.runs count circuit ≠ .ok circuit) :
    period ≤ (before ++ next :: cycle).length := by
  by_contra more
  -- Both ways to the output that came back lead on to the circuit.
  obtain ⟨rest, enough⟩ := Nat.exists_eq_add_of_le (Nat.lt_of_not_le more)
  have shortcut : config.runs (before.length + 1) circuit = .ok next := ending.reached (by simp)
  have sooner : config.runs (before.length + 1 + rest) circuit = .ok circuit := by
    rw [runs_add shortcut, ← runs_add ending.next_reached, ← returns, enough]
  rw [List.length_append, List.length_cons] at enough
  exact first _ (by omega) (by omega) sooner

/-- Circuits of a cycle come back. -/
theorem returns_of_mem {before cycle : List Circuit}
    (ending : config.Ending circuit (before ++ next :: cycle) next) {form : Circuit}
    (member : form ∈ next :: cycle) :
    ∃ count, config.runs count circuit = .ok form ∧
      config.runs (cycle.length + 1) form = .ok form := by
  obtain ⟨place, listed⟩ := List.mem_iff_getElem?.mp member
  have start : config.runs (before.length + 1) circuit = .ok next := ending.reached (by simp)
  have onward : config.runs place next = .ok form := by
    rw [← runs_add start, Nat.add_right_comm]
    exact ending.reached (by simpa [List.getElem?_append_right] using listed)
  have around : config.runs (cycle.length + 1) next = .ok next := by
    rw [← runs_add start, ← ending.next_reached, List.length_append, List.length_cons]
    congr 1
    omega
  refine ⟨before.length + 1 + place, (runs_add start place).trans onward, ?_⟩
  rw [← runs_add onward, Nat.add_comm, runs_add around, onward]

end Ending

/-- The circuits of outputs that were seen. -/
theorem Seen.ending {outputs : List Output} {next : Output} (seen : config.Seen circuit outputs)
    (apart : config.TellsApart circuit) (bounded : outputs.length ≤ maxOutputs)
    (ran : config.runs (outputs.length + 1) circuit = .ok next.circuit) :
    config.Ending circuit (outputs.map Output.circuit) next.circuit where
  reached := by
    intro position form listed
    rw [List.getElem?_map] at listed
    obtain ⟨output, found, rfl⟩ := Option.map_eq_some_iff.mp listed
    exact seen.reached found
  different := by
    refine List.pairwise_map.mpr (seen.different.imp_of_mem ?_)
    intro earlier later earlierSeen laterSeen notSame equal
    obtain ⟨first, firstListed⟩ := List.mem_iff_getElem?.mp earlierSeen
    obtain ⟨second, secondListed⟩ := List.mem_iff_getElem?.mp laterSeen
    rw [(apart (seen.reached firstListed) (seen.reached secondListed)).mpr equal] at notSame
    cases notSame
  bounded := by rwa [List.length_map]
  next_reached := by rwa [List.length_map]

/-- Canonicalization returns the ninth circuit, or the preferred one of a cycle. -/
theorem canonicalizeWith_chooses {output : Output} (apart : config.TellsApart circuit)
    (done : circuit.canonicalizeWith config = .ok output) :
    ∃ forms next, config.Ending circuit forms next ∧
      ((next ∉ forms ∧ forms.length = maxOutputs ∧ output.circuit = next) ∨
        ∃ before cycle, forms = before ++ next :: cycle ∧
          output.circuit = (next :: cycle).foldl Circuit.preferred next) := by
  rw [Circuit.canonicalizeWith] at done
  split at done
  · cases done
  · split at done
    · cases done
    · rename_i first ran
      have seen : config.Seen circuit ([] ++ [first]) :=
        Seen.append ⟨by simp, .nil⟩ (runs_succ rfl ran) rfl
      obtain ⟨outputs, next, seen, bounded, nextReached, chosen⟩ := settle_chooses seen rfl done
      have ending := seen.ending apart bounded nextReached
      refine ⟨outputs.map Output.circuit, next.circuit, ending, ?_⟩
      -- The comparison of outputs is equality among what runs reach.
      have same : ∀ other ∈ outputs,
          Operation.sameAll other.circuit next.circuit = true ↔ other.circuit = next.circuit := by
        intro other member
        obtain ⟨position, listed⟩ := List.mem_iff_getElem?.mp member
        exact apart (seen.reached listed) nextReached
      rcases chosen with ⟨new, full, rfl⟩ | ⟨back, rfl⟩
      · refine .inl ⟨fun member => ?_, by rwa [List.length_map], rfl⟩
        obtain ⟨other, listed, equal⟩ := List.mem_map.mp member
        have notSame := cycleFrom_eq_nil_iff.mp new other listed
        rw [(same other listed).mpr equal] at notSame
        cases notSame
      · obtain ⟨before, start, rest, parts, cycle, starts⟩ := exists_cycleFrom back
        have equal := (same start (by simp [parts])).mp starts
        refine .inr ⟨before.map Output.circuit, rest.map Output.circuit, ?_, ?_⟩
        · rw [parts, List.map_append, List.map_cons, equal]
        · rw [Circuit.circuit_foldl_preferred, cycle, List.map_cons, equal]

/-- A circuit that is its own canonical form comes back. -/
theorem recurs_of_canonicalizeWith {output : Output} (apart : config.TellsApart circuit)
    (done : circuit.canonicalizeWith config = .ok output) (same : output.circuit = circuit) :
    config.Recurs circuit := by
  obtain ⟨forms, next, ending, ⟨new, full, last⟩ | ⟨before, cycle, parts, chosen⟩⟩ :=
    canonicalizeWith_chooses apart done
  · -- The ninth output is the circuit, and it is new among the eight before it.
    obtain rfl : next = circuit := last.symm.trans same
    have returns := ending.next_reached
    rw [full] at returns
    refine ⟨maxOutputs + 1, Nat.succ_pos _, Nat.le_refl _, returns, ?_⟩
    intro count between positive fewer reached
    obtain ⟨position, rfl⟩ := Nat.exists_eq_succ_of_ne_zero positive.ne'
    have listed := ending.getElem?_of_runs (by omega) reached
    refine ⟨fun back => ?_, fun short => absurd short (Nat.not_succ_le_self _)⟩
    exact new (back ▸ List.mem_of_getElem? listed)
  · -- The circuit is in the cycle, so that the cycle goes through all outputs and the circuit
    -- is the last of them.
    rw [same] at chosen
    have member : circuit ∈ next :: cycle := chosen ▸ Circuit.foldl_preferred_mem next cycle
    obtain ⟨position, early, listed, returns⟩ :=
      ending.exists_position (parts ▸ List.mem_append_right before member)
    have late := ending.length_le_of_returns (Nat.succ_pos position) returns
    have whole : position + 1 = forms.length := by omega
    rw [whole] at returns
    subst parts
    obtain rfl := ending.before_eq_nil returns
    refine ⟨_, whole ▸ Nat.succ_pos position, ending.bounded.trans (Nat.le_succ _), returns, ?_⟩
    intro count between positive fewer reached
    obtain ⟨earlier, rfl⟩ := Nat.exists_eq_succ_of_ne_zero positive.ne'
    have found := ending.getElem?_of_runs (by omega) reached
    have other : between ≠ circuit := by
      rintro rfl
      have same := ending.position_unique found listed
      omega
    refine ⟨other, fun _ => ?_⟩
    have isLast : (next :: cycle).getLast? = some circuit := by
      rw [List.getLast?_eq_getElem?, ← listed]
      exact congrArg _ (Nat.eq_sub_of_add_eq whole).symm
    exact Circuit.precedes_of_chosen_last ending.different isLast chosen.symm
      (List.mem_of_getElem? found) other

/-- Settling comes to an end if no run fails. -/
theorem exists_settle (spare : Nat) (earlier : List Output) {latest : Output}
    (works : ∀ count, ∃ reached, config.runs count latest.circuit = .ok reached) :
    ∃ output, config.settle spare earlier latest = .ok output := by
  induction spare generalizing earlier latest with
  | zero =>
    obtain ⟨next, ran, -⟩ := exists_runOnce works
    rw [settle, ran]
    cases cycle : Output.cycleFrom (earlier ++ [latest]) next with
    | nil => exact ⟨next, by simp [cycle]⟩
    | cons first rest => exact ⟨(first :: rest).foldl Output.preferred next, by simp [cycle]⟩
  | succ spare inductionHypothesis =>
    obtain ⟨next, ran, further⟩ := exists_runOnce works
    rw [settle, ran]
    cases cycle : Output.cycleFrom (earlier ++ [latest]) next with
    | nil =>
      obtain ⟨output, settled⟩ := inductionHypothesis (earlier ++ [latest]) further
      exact ⟨output, by simp [cycle, settled]⟩
    | cons first rest => exact ⟨(first :: rest).foldl Output.preferred next, by simp [cycle]⟩

/-- Canonicalization succeeds if no run fails. -/
theorem exists_canonicalizeWith (valid : config.validate = .ok ())
    (works : ∀ count, ∃ reached, config.runs count circuit = .ok reached) :
    ∃ output, circuit.canonicalizeWith config = .ok output := by
  obtain ⟨first, ran, further⟩ := exists_runOnce works
  obtain ⟨output, settled⟩ := exists_settle (maxOutputs - 1) [] further
  exact ⟨output, by simp [Circuit.canonicalizeWith, valid, ran, settled]⟩

/-- A circuit that comes back is its own canonical form. -/
theorem Recurs.canonicalizeWith (recurs : config.Recurs circuit)
    (apart : config.TellsApart circuit) (valid : config.validate = .ok ()) :
    ∃ output, circuit.canonicalizeWith config = .ok output ∧ output.circuit = circuit := by
  obtain ⟨period, positive, bounded, returns, onTheWay⟩ := recurs
  obtain ⟨output, done⟩ := exists_canonicalizeWith valid (exists_runs_of_returns positive returns)
  refine ⟨output, done, ?_⟩
  obtain ⟨forms, next, ending, ⟨new, full, last⟩ | ⟨before, cycle, parts, chosen⟩⟩ :=
    canonicalizeWith_chooses apart done
  · have late := ending.length_le_of_returns positive returns
    rw [full] at late
    rcases Nat.lt_or_ge maxOutputs period with more | fewer
    · obtain rfl : period = forms.length + 1 := by omega
      rw [last]
      exact Except.ok.inj (ending.next_reached.symm.trans returns)
    · -- The eighth run would have come back, and the ninth output would not be new.
      obtain rfl : period = forms.length := by omega
      exact absurd (List.mem_of_getElem? (ending.getElem?_zero_of_returns positive returns)) new
  · subst parts
    have late := ending.length_le_of_returns positive returns
    have early := ending.le_length_of_returns returns fun count least fewer back =>
      (onTheWay count circuit least fewer back).1 rfl
    obtain rfl := Nat.le_antisymm early late
    obtain rfl := ending.before_eq_nil returns
    have own : circuit ∈ [] ++ next :: cycle := by
      obtain ⟨position, size⟩ := Nat.exists_eq_succ_of_ne_zero positive.ne'
      exact List.mem_of_getElem? (ending.getElem?_of_runs (by omega) (size ▸ returns))
    rw [chosen]
    refine Circuit.foldl_preferred_eq (.tail _ own) fun other member different => ?_
    have listed : other ∈ [] ++ next :: cycle := by simpa using member
    obtain ⟨position, within, -, reached⟩ := ending.exists_position listed
    have notLast : position + 1 ≠ ([] ++ next :: cycle).length := by
      intro whole
      rw [whole] at reached
      exact different (Except.ok.inj (reached.symm.trans returns))
    exact (onTheWay _ _ (Nat.succ_pos position) (by omega) reached).2 ending.bounded

/-- If the output stops changing, canonicalization returns what it stops at. -/
theorem StopsChanging.runs_one (stops : config.StopsChanging circuit)
    (apart : config.TellsApart circuit) {output : Output}
    (done : circuit.canonicalizeWith config = .ok output) :
    config.runs 1 output.circuit = .ok output.circuit := by
  obtain ⟨count, final, positive, bounded, reached, again⟩ := stops
  obtain ⟨position, rfl⟩ := Nat.exists_eq_succ_of_ne_zero positive.ne'
  have stays : config.runs 1 final = .ok final := by rwa [runs_add reached] at again
  obtain ⟨forms, next, ending, ⟨new, full, -⟩ | ⟨before, cycle, rfl, chosen⟩⟩ :=
    canonicalizeWith_chooses apart done
  · have listed := ending.getElem?_of_runs (by omega) reached
    rcases Nat.lt_or_ge (position + 1) forms.length with early | late
    · have same := ending.position_unique listed (ending.getElem?_of_runs early again)
      omega
    · obtain same : position + 1 = forms.length := by omega
      rw [Nat.succ_eq_add_one, same] at again
      obtain rfl := Except.ok.inj (ending.next_reached.symm.trans again)
      exact absurd (List.mem_of_getElem? listed) new
  · have member : output.circuit ∈ next :: cycle :=
      chosen ▸ Circuit.foldl_preferred_mem next cycle
    obtain ⟨earlier, found, returns⟩ := ending.returns_of_mem member
    -- Far enough on, the runs are both at the output and at what they stop at.
    have there := runs_add found ((position + 1) * (cycle.length + 1))
    rw [runs_mul returns] at there
    obtain ⟨more, enough⟩ := Nat.exists_eq_add_of_le
      (Nat.le_trans (Nat.le_mul_of_pos_right (position + 1) (Nat.succ_pos cycle.length))
        (Nat.le_add_left _ earlier))
    rw [enough, runs_add reached, ← Nat.mul_one more, runs_mul stays] at there
    rw [← Except.ok.inj there]
    exact stays

end Config

namespace Circuit

/-- The canonical form under the default configuration. -/
theorem canonicalize_eq_ok_iff {wholeCircuit : Bool} {circuit result : Circuit} :
    circuit.canonicalize wholeCircuit = .ok result ↔
      ∃ output, circuit.canonicalizeWith { wholeCircuit := wholeCircuit } = .ok output ∧
        output.circuit = result := by
  rw [canonicalize]
  split
  · simp_all
  · rename_i output done
    simp [done]

/-- Canonicalizing twice is canonicalizing once exactly where the result comes
    back, and so wherever the output stops changing in time. -/
theorem canonicalize_again {wholeCircuit : Bool} {circuit result : Circuit}
    (apart : Config.TellsApart { wholeCircuit := wholeCircuit } circuit)
    (done : circuit.canonicalize wholeCircuit = .ok result) :
    (result.canonicalize wholeCircuit = .ok result ↔
        Config.Recurs { wholeCircuit := wholeCircuit } result) ∧
      (Config.StopsChanging { wholeCircuit := wholeCircuit } circuit →
        result.canonicalize wholeCircuit = .ok result) := by
  obtain ⟨output, ran, rfl⟩ := canonicalize_eq_ok_iff.mp done
  obtain ⟨count, reached⟩ := Config.exists_runs_of_canonicalizeWith ran
  have resultApart := apart.of_runs reached
  have again : output.circuit.canonicalize wholeCircuit = .ok output.circuit ↔
      Config.Recurs { wholeCircuit := wholeCircuit } output.circuit := by
    rw [canonicalize_eq_ok_iff]
    constructor
    · rintro ⟨other, ranAgain, same⟩
      exact Config.recurs_of_canonicalizeWith resultApart ranAgain same
    · exact fun recurs => recurs.canonicalizeWith resultApart rfl
  refine ⟨again, fun stops => again.mpr ⟨1, Nat.one_pos, by decide, ?_, ?_⟩⟩
  · exact stops.runs_one apart ran
  · intro fewer between positive less
    omega

/-- Measurements of one qubit in a row, and then a rotated measurement of another. -/
def lateRotation (rounds : Nat) : Circuit :=
  (List.replicate rounds [.single (.onQubits (.measure .Z) [0]), .single .tick]).flatten ++
    [.single (.onQubits (.exchange .Y) [1]), .single .tick,
      .single (.onQubits (.measure .Z) [1])]

/-- The law applies to a rotation that comes late, as the circuit has no arguments. -/
theorem canonicalize_again_lateRotation :
    ∃ result, (lateRotation 2).canonicalize true = .ok result ∧
      (result.canonicalize true = .ok result ↔
          Config.Recurs { wholeCircuit := true } result) ∧
        (Config.StopsChanging { wholeCircuit := true } (lateRotation 2) →
          result.canonicalize true = .ok result) := by
  obtain ⟨result, done⟩ : ∃ result, (lateRotation 2).canonicalize true = .ok result :=
    exists_of_isOk (by decide +kernel)
  have free : (lateRotation 2).ArgumentFree := by decide +kernel
  exact ⟨result, done, canonicalize_again (Config.tellsApart_of_argumentFree free) done⟩

/-- Canonicalizing twice can differ from canonicalizing once. Here nine runs leave
    the rotation two layers behind the start, and the tenth would not. -/
theorem canonicalize_lateRotation_changes :
    ∃ result, (lateRotation 20).canonicalize true = .ok result ∧
      result.canonicalize true ≠ .ok result := by
  have changes : (match (lateRotation 20).canonicalize true with
      | .ok result =>
        match result.canonicalize true with
        | .ok again => !Operation.sameAll again result
        | .error _ => true
      | .error _ => false) = true := by
    decide +kernel
  split at changes
  · rename_i result done
    refine ⟨result, done, fun same => ?_⟩
    obtain ⟨output, ran, rfl⟩ := canonicalize_eq_ok_iff.mp done
    obtain ⟨count, reached⟩ := Config.exists_runs_of_canonicalizeWith ran
    have free : output.circuit.ArgumentFree :=
      Config.argumentFree_of_runs (by decide +kernel) reached
    have equal := (Operation.sameAll_iff_eq free free).mpr rfl
    rw [same] at changes
    simp [equal] at changes
  · cases changes

end Circuit

end StabilizerLayers
