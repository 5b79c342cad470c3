import StabilizerLayers.Proofs.Pipeline.CanonicalForms
import StabilizerLayers.Proofs.Text.Listing

/-!
# Cycles of runs

Runs that come back to an output go around a cycle from there on, and where they enter it
depends on the circuit that they started from. The form that canonicalization returns does
not. Outputs of runs on circuits without arguments are told by their lines, so that one
member of the cycle precedes all the others, and canonicalization looks at all of the cycle
and at nothing else before it chooses.
-/

namespace StabilizerLayers

/-! ### Forms that are told apart -/

/-- Of two different circuits without arguments whose names can be read, one precedes the
    other. -/
theorem Circuit.eq_of_not_precedes {first second : Circuit}
    (firstPlain : Operation.PlainAll first) (secondPlain : Operation.PlainAll second)
    (notBelow : first.precedes second = false) (notAbove : second.precedes first = false) :
    first = second := by
  have same : first.rank = second.rank :=
    le_antisymm (precedes_eq_false_iff.mp notAbove) (precedes_eq_false_iff.mp notBelow)
  exact eq_of_listing firstPlain secondPlain (congrArg (fun rank => (ofLex rank).2) same)

/-- The vocabulary has only names that can be read. -/
theorem Instruction.isReadable_of_isCanonical {instruction : Instruction}
    (canonical : instruction.isCanonical = true) : instruction.operator.IsReadable := by
  obtain ⟨operator, targets, arguments⟩ := instruction
  cases operator with
  | known gate => trivial
  | custom name => cases canonical

namespace Config

variable {config : Config} {circuit form other : Circuit}

/-- Whether two of the first nine outputs are equal. -/
def Repeats (config : Config) (circuit : Circuit) : Prop :=
  ∃ earlier later form, 0 < earlier ∧ earlier < later ∧ later ≤ maxOutputs + 1 ∧
    config.runs earlier circuit = .ok form ∧ config.runs later circuit = .ok form

/-- Whether a form is in the cycle that runs on a circuit end in. -/
structure EndsAround (config : Config) (circuit form : Circuit) : Prop where
  reached : ∃ count, config.runs count circuit = .ok form
  returns : ∃ period, 0 < period ∧ config.runs period form = .ok form

/-- Whether a form precedes all others of the cycle that runs on a circuit end in. -/
structure LeadsCycle (config : Config) (circuit form : Circuit) : Prop where
  endsAround : config.EndsAround circuit form
  precedes : ∀ other, config.EndsAround circuit other → other ≠ form → form.precedes other = true

/-! ### Going around -/

/-- Runs on a circuit reach its cycle, however late one looks. -/
theorem EndsAround.exists_late (ends : config.EndsAround circuit form) (count : Nat) :
    ∃ more, config.runs (count + more) circuit = .ok form := by
  obtain ⟨⟨entered, reached⟩, period, positive, returns⟩ := ends
  obtain ⟨excess, enough⟩ := Nat.exists_eq_add_of_le (Nat.le_mul_of_pos_right count positive)
  refine ⟨excess + entered, ?_⟩
  have late : count + (excess + entered) = entered + count * period := by omega
  rw [late, runs_add reached, runs_mul returns]

/-- What runs on a circuit reach ends in the same cycle. -/
theorem endsAround_iff_of_runs {count : Nat} {middle : Circuit}
    (reached : config.runs count circuit = .ok middle) :
    config.EndsAround circuit form ↔ config.EndsAround middle form := by
  constructor
  · intro ends
    obtain ⟨more, late⟩ := ends.exists_late count
    rw [runs_add reached] at late
    exact ⟨⟨more, late⟩, ends.returns⟩
  · rintro ⟨⟨more, late⟩, returns⟩
    rw [← runs_add reached] at late
    exact ⟨⟨count + more, late⟩, returns⟩

/-- The form that leads a cycle leads it from wherever the runs start. -/
theorem leadsCycle_iff_of_runs {count : Nat} {middle : Circuit}
    (reached : config.runs count circuit = .ok middle) :
    config.LeadsCycle circuit form ↔ config.LeadsCycle middle form := by
  have same (other : Circuit) : config.EndsAround circuit other ↔ config.EndsAround middle other :=
    endsAround_iff_of_runs reached
  constructor
  · intro leads
    refine ⟨(same form).mp leads.endsAround, fun other ends => ?_⟩
    exact leads.precedes other ((same other).mpr ends)
  · intro leads
    refine ⟨(same form).mpr leads.endsAround, fun other ends => ?_⟩
    exact leads.precedes other ((same other).mp ends)

/-- One form at most leads a cycle. -/
theorem LeadsCycle.unique (leads : config.LeadsCycle circuit form)
    (otherLeads : config.LeadsCycle circuit other) : form = other := by
  by_contra different
  have below := leads.precedes other otherLeads.endsAround (Ne.symm different)
  have above := otherLeads.precedes form leads.endsAround different
  exact lt_asymm (Circuit.precedes_iff.mp below) (Circuit.precedes_iff.mp above)

/-- No run on a circuit whose outputs repeat fails. -/
theorem Repeats.exists_runs (repeats : config.Repeats circuit) (count : Nat) :
    ∃ reached, config.runs count circuit = .ok reached := by
  obtain ⟨earlier, later, form, -, before, -, reached, again⟩ := repeats
  obtain ⟨period, rfl⟩ := Nat.exists_eq_add_of_lt before
  rw [Nat.add_assoc, runs_add reached] at again
  obtain ⟨far, onward⟩ := exists_runs_of_returns (Nat.succ_pos period) again count
  rw [← runs_add reached, Nat.add_comm] at onward
  exact exists_runs_of_add onward

/-- The outputs of a circuit that comes back in time repeat. -/
theorem repeats_of_returns {period : Nat} (positive : 0 < period) (bounded : period ≤ maxOutputs)
    (returns : config.runs period circuit = .ok circuit) : config.Repeats circuit := by
  obtain ⟨next, once⟩ := exists_runs_of_returns positive returns 1
  refine ⟨1, period + 1, next, Nat.one_pos, by omega, by omega, once, ?_⟩
  rw [runs_add returns, once]

/-- A circuit whose runs stop at a form in time repeats its outputs and ends there. -/
theorem repeats_and_endsAround {count : Nat} (positive : 0 < count) (bounded : count ≤ maxOutputs)
    (reached : config.runs count circuit = .ok form) (stays : config.runs 1 form = .ok form) :
    config.Repeats circuit ∧ config.EndsAround circuit form := by
  constructor
  · exact ⟨count, count + 1, form, positive, Nat.lt_succ_self count, Nat.succ_le_succ bounded,
      reached, (runs_add reached 1).trans stays⟩
  · exact ⟨⟨count, reached⟩, 1, Nat.one_pos, stays⟩

/-! ### Outputs without arguments -/

/-- Runs reach a circuit without arguments if they reach one that is the same. -/
theorem runs_eq_ok_of_sameAll {count : Nat} (free : circuit.ArgumentFree)
    (formFree : form.ArgumentFree)
    (same : (config.runs count circuit).toOption.any (Operation.sameAll · form) = true) :
    config.runs count circuit = .ok form := by
  cases ran : config.runs count circuit with
  | error fault =>
    rw [ran] at same
    cases same
  | ok reached =>
    rw [ran] at same
    have equal := (Operation.sameAll_iff_eq (argumentFree_of_runs free ran) formFree).mp same
    rw [equal]

/-- Outputs of runs on circuits without arguments have names that can be read. -/
theorem plainAll_of_runs {count : Nat} (free : circuit.ArgumentFree) (positive : 0 < count)
    (reached : config.runs count circuit = .ok form) : Operation.PlainAll form := by
  obtain ⟨fewer, rfl⟩ := Nat.exists_eq_succ_of_ne_zero positive.ne'
  rw [Nat.succ_eq_add_one] at reached
  obtain ⟨middle, before⟩ := exists_runs_of_add reached
  have last := (runs_add before 1).symm.trans reached
  rw [runs] at last
  split at last
  · cases last
  · rename_i output ran
    obtain rfl : output.circuit = form := Except.ok.inj last
    intro instruction member
    have canonical := (canonical_runOnce ran).2 instruction member
    exact ⟨argumentFree_of_runs free reached instruction member,
      Instruction.isReadable_of_isCanonical canonical⟩

/-- Of two different forms in the cycle of a circuit without arguments, one precedes the
    other. -/
theorem EndsAround.eq_of_not_precedes (free : circuit.ArgumentFree)
    (ends : config.EndsAround circuit form) (otherEnds : config.EndsAround circuit other)
    (notBelow : form.precedes other = false) (notAbove : other.precedes form = false) :
    form = other := by
  have plain {form : Circuit} (ends : config.EndsAround circuit form) :
      Operation.PlainAll form := by
    obtain ⟨⟨count, reached⟩, period, positive, returns⟩ := ends
    exact plainAll_of_runs (argumentFree_of_runs free reached) positive returns
  exact Circuit.eq_of_not_precedes (plain ends) (plain otherEnds) notBelow notAbove

/-! ### What canonicalization finds -/

/-- The circuits from where one came back are those of the cycle. -/
theorem Ending.mem_iff_endsAround {before cycle : List Circuit} {next : Circuit}
    (ending : config.Ending circuit (before ++ next :: cycle) next) :
    form ∈ next :: cycle ↔ config.EndsAround circuit form := by
  constructor
  · intro member
    obtain ⟨count, reached, returns⟩ := ending.returns_of_mem member
    exact ⟨⟨count, reached⟩, cycle.length + 1, Nat.succ_pos _, returns⟩
  · intro ends
    have start : config.runs (before.length + 1) circuit = .ok next := ending.reached (by simp)
    obtain ⟨-, -, around⟩ := ending.returns_of_mem (.head cycle)
    obtain ⟨more, late⟩ := ends.exists_late (before.length + 1)
    -- Going around leaves the circuit where it is, so that fewer runs than one round do.
    have place : more % (cycle.length + 1) < cycle.length + 1 := Nat.mod_lt _ (Nat.succ_pos _)
    have early : config.runs (more % (cycle.length + 1)) next = .ok form := by
      rw [runs_add start, ← Nat.div_add_mod' more (cycle.length + 1),
        runs_add (runs_mul around _)] at late
      exact late
    rw [← runs_add start, Nat.add_right_comm] at early
    have within : before.length + more % (cycle.length + 1) < (before ++ next :: cycle).length := by
      rw [List.length_append, List.length_cons]
      omega
    have listed := ending.getElem?_of_runs within early
    rw [List.getElem?_append_right (Nat.le_add_right _ _), Nat.add_sub_cancel_left] at listed
    exact List.mem_of_getElem? listed

/-- If two of the first nine outputs are equal, canonicalization does not go on to the ninth. -/
theorem Repeats.mem_of_ending {forms : List Circuit} {next : Circuit}
    (repeats : config.Repeats circuit) (ending : config.Ending circuit forms next)
    (full : forms.length = maxOutputs) : next ∈ forms := by
  obtain ⟨earlier, later, form, positive, before, bounded, reached, again⟩ := repeats
  obtain ⟨first, rfl⟩ := Nat.exists_eq_succ_of_ne_zero positive.ne'
  obtain ⟨second, rfl⟩ := Nat.exists_eq_succ_of_ne_zero (positive.trans before).ne'
  have listed := ending.getElem?_of_runs (by omega) reached
  rcases Nat.lt_or_ge second forms.length with early | late
  · have same := ending.position_unique listed (ending.getElem?_of_runs early again)
    omega
  · obtain rfl : second = forms.length := by omega
    obtain rfl := Except.ok.inj (ending.next_reached.symm.trans again)
    exact List.mem_of_getElem? listed

/-- Canonicalization of a circuit whose outputs repeat returns the form that leads the
    cycle, and the outputs of that form repeat as well. -/
theorem Repeats.canonicalizeWith (repeats : config.Repeats circuit)
    (valid : config.validate = .ok ()) (free : circuit.ArgumentFree) :
    ∃ output, circuit.canonicalizeWith config = .ok output ∧
      config.LeadsCycle circuit output.circuit ∧ config.Repeats output.circuit := by
  obtain ⟨output, done⟩ := exists_canonicalizeWith valid repeats.exists_runs
  refine ⟨output, done, ?_⟩
  obtain ⟨forms, next, ending, ⟨new, full, -⟩ | ⟨before, cycle, rfl, chosen⟩⟩ :=
    canonicalizeWith_chooses (tellsApart_of_argumentFree free) done
  · exact absurd (repeats.mem_of_ending ending full) new
  · have member : output.circuit ∈ next :: cycle :=
      chosen ▸ Circuit.foldl_preferred_mem next cycle
    have ends := ending.mem_iff_endsAround.mp member
    refine ⟨⟨ends, ?_⟩, ?_⟩
    · intro other otherEnds different
      have listed := ending.mem_iff_endsAround.mpr otherEnds
      have least := (Circuit.foldl_preferred_least next (next :: cycle)).2
      have notAbove := Circuit.precedes_eq_false_iff.mpr (chosen ▸ least other (.tail _ listed))
      by_contra notBelow
      exact different (otherEnds.eq_of_not_precedes free ends notAbove
        (Bool.eq_false_iff.mpr notBelow))
    · obtain ⟨-, -, returns⟩ := ending.returns_of_mem member
      have bounded := ending.bounded
      rw [List.length_append, List.length_cons] at bounded
      exact repeats_of_returns (Nat.succ_pos _) (by omega) returns

end Config

namespace Circuit

/-- Circuits without arguments whose outputs repeat in time and end in the same cycle have
    the same canonical form. It is the one form that precedes all others of the cycle, and
    its own canonical form. -/
theorem canonicalizeWith_cycle {config : Config} {first second form : Circuit}
    (valid : config.validate = .ok ()) (firstFree : first.ArgumentFree)
    (secondFree : second.ArgumentFree) (firstRepeats : config.Repeats first)
    (secondRepeats : config.Repeats second) (firstEnds : config.EndsAround first form)
    (secondEnds : config.EndsAround second form) :
    ∃ best, config.LeadsCycle form best ∧
      (∃ output, first.canonicalizeWith config = .ok output ∧ output.circuit = best) ∧
      (∃ output, second.canonicalizeWith config = .ok output ∧ output.circuit = best) ∧
      ∃ output, best.canonicalizeWith config = .ok output ∧ output.circuit = best := by
  obtain ⟨firstCount, firstReached⟩ := firstEnds.reached
  obtain ⟨secondCount, secondReached⟩ := secondEnds.reached
  obtain ⟨best, firstDone, firstLeads, bestRepeats⟩ := firstRepeats.canonicalizeWith valid firstFree
  obtain ⟨other, secondDone, secondLeads, -⟩ := secondRepeats.canonicalizeWith valid secondFree
  have leads := (Config.leadsCycle_iff_of_runs firstReached).mp firstLeads
  have otherLeads := (Config.leadsCycle_iff_of_runs secondReached).mp secondLeads
  refine ⟨best.circuit, leads, ⟨best, firstDone, rfl⟩, ?_, ?_⟩
  · exact ⟨other, secondDone, otherLeads.unique leads⟩
  · obtain ⟨bestCount, bestReached⟩ := firstLeads.endsAround.reached
    have bestFree := Config.argumentFree_of_runs firstFree bestReached
    obtain ⟨again, done, againLeads, -⟩ := bestRepeats.canonicalizeWith valid bestFree
    have bestLeads := (Config.leadsCycle_iff_of_runs bestReached).mp firstLeads
    exact ⟨again, done, againLeads.unique bestLeads⟩

/-- A rotation of one qubit and measurements of another, and then measurements in groups. -/
def earlyRotation (last : List (List Qubit)) : Circuit :=
  [.single (.onQubits (.exchange .Y) [1]), .single .tick,
    .single (.onQubits (.measure .Z) [0]), .single .tick,
    .single (.onQubits (.measure .Z) [0]), .single .tick] ++
      last.map fun qubits => .single (.onQubits (.measure .Z) qubits)

/-- A rotation that comes late and measurements that stand apart lead to one form. -/
theorem canonicalizeWith_cycle_rotations :
    ∃ best, Config.LeadsCycle {} (earlyRotation [[0, 1]]) best ∧
      (∃ output, (lateRotation 3).canonicalizeWith {} = .ok output ∧ output.circuit = best) ∧
      (∃ output, (earlyRotation [[0], [1]]).canonicalizeWith {} = .ok output ∧
        output.circuit = best) ∧
      ∃ output, best.canonicalizeWith {} = .ok output ∧ output.circuit = best := by
  have lateFree : (lateRotation 3).ArgumentFree := by decide +kernel
  have earlyFree : (earlyRotation [[0], [1]]).ArgumentFree := by decide +kernel
  have finalFree : (earlyRotation [[0, 1]]).ArgumentFree := by decide +kernel
  have stays : Config.runs {} 1 (earlyRotation [[0, 1]]) = .ok (earlyRotation [[0, 1]]) :=
    Config.runs_eq_ok_of_sameAll finalFree finalFree (by decide +kernel)
  -- The first circuit takes two runs to arrive, the second takes one.
  have late : Config.runs {} 2 (lateRotation 3) = .ok (earlyRotation [[0, 1]]) :=
    Config.runs_eq_ok_of_sameAll lateFree finalFree (by decide +kernel)
  have early : Config.runs {} 1 (earlyRotation [[0], [1]]) = .ok (earlyRotation [[0, 1]]) :=
    Config.runs_eq_ok_of_sameAll earlyFree finalFree (by decide +kernel)
  obtain ⟨lateRepeats, lateEnds⟩ :=
    Config.repeats_and_endsAround Nat.two_pos (by decide) late stays
  obtain ⟨earlyRepeats, earlyEnds⟩ :=
    Config.repeats_and_endsAround Nat.one_pos (by decide) early stays
  exact canonicalizeWith_cycle rfl lateFree earlyFree lateRepeats earlyRepeats lateEnds earlyEnds

end Circuit

end StabilizerLayers
