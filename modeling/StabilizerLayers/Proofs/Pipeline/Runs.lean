import StabilizerLayers.Pipeline.Settling
import StabilizerLayers.Proofs.Schedule.Grouped
import StabilizerLayers.Proofs.Schedule.Written

/-!
# Runs of the pipeline

Every pass but one is a rewriting; the one that is not drops the tail of a whole
circuit. So one run writes a schedule that does what the circuit does, less its
tail if the circuit is a whole one.

Canonicalization runs the pipeline on its own output and returns one of the
outputs. What one run preserves, canonicalization preserves.
-/

namespace StabilizerLayers

namespace Pass

/-- Every pass but the removal of the tail is a rewriting. -/
theorem rewrites_transform {form : Layer → Prop} (sufficient : Layer.Sufficient form) {pass : Pass}
    (keeps : pass ≠ .dropTail) (schedule : Schedule) :
    Rewrites form schedule (pass.transform schedule) := by
  intro everywhere
  refine ⟨sufficient.keeps_transform pass schedule everywhere, ?_⟩
  cases pass with
  | hoistCoords => exact Schedule.agrees_hoistCoords schedule
  | sweep rounds => exact (sufficient.rewrites_sweepUpTo rounds schedule everywhere).2
  | zForm => exact (sufficient.rewrites_zForms sufficient.namesOnce schedule everywhere).2
  | rollLoops => exact (sufficient.rewrites_rollLoops schedule everywhere).2
  | dropIdleRotations => exact Schedule.agrees_withoutIdleRotations schedule
  | mergeRotations => exact Schedule.agrees_mergeRotations schedule
  | dropRotationsBeforeResets => exact Schedule.agrees_withoutRotationsBeforeResets schedule
  | dropTail => exact absurd rfl keeps
  | verify => exact .refl _

/-- A pass transforms the schedule and leaves the flag alone. -/
theorem run_eq_ok {pass : Pass} {schedule next : Schedule} {findings noted : Findings}
    (ran : pass.run schedule findings = .ok (next, noted)) :
    next = pass.transform schedule ∧ noted.wholeCircuit = findings.wholeCircuit := by
  by_cases looks : pass = .verify
  · subst looks
    rw [run, work_verify] at ran
    split at ran
    · rename_i checked
      split at checked
      · cases checked
      · cases checked
        cases ran
        exact ⟨rfl, rfl⟩
    · cases ran
  · rw [run_of_ne_verify looks] at ran
    cases ran
    exact ⟨rfl, rfl⟩

/-- Passes that drop no tail rewrite the schedule. -/
theorem rewrites_runAll {passes : List Pass} {schedule next : Schedule}
    {findings noted : Findings} (keeps : ∀ pass ∈ passes, pass ≠ .dropTail)
    (ran : runAll passes schedule findings = .ok (next, noted)) :
    Rewrites Layer.WellFormed schedule next ∧ noted.wholeCircuit = findings.wholeCircuit := by
  induction passes generalizing schedule findings with
  | nil =>
    obtain ⟨rfl, rfl⟩ := Prod.mk.inj (Except.ok.inj ran)
    exact ⟨Rewrites.compatible.refl _, rfl⟩
  | cons pass rest inductionHypothesis =>
    have later : ∀ other ∈ rest, other ≠ .dropTail := fun other member =>
      keeps other (.tail _ member)
    rw [runAll] at ran
    split at ran
    · split at ran
      · rename_i middle between here
        obtain ⟨rfl, sameFlag⟩ := run_eq_ok here
        obtain ⟨rewrites, alsoSameFlag⟩ := inductionHypothesis later ran
        have here := rewrites_transform Layer.sufficient_wellFormed (keeps pass (.head _)) schedule
        exact ⟨Rewrites.compatible.trans here rewrites, alsoSameFlag.trans sameFlag⟩
      · cases ran
    · exact inductionHypothesis later ran

/-- Passes go on from what passes before them have made. -/
theorem runAll_append_of_ok {first second : List Pass} {schedule middle : Schedule}
    {findings between : Findings} (ran : runAll first schedule findings = .ok (middle, between)) :
    runAll (first ++ second) schedule findings = runAll second middle between := by
  induction first generalizing schedule findings with
  | nil =>
    obtain ⟨rfl, rfl⟩ := Prod.mk.inj (Except.ok.inj ran)
    rfl
  | cons pass rest inductionHypothesis =>
    rw [runAll] at ran
    rw [List.cons_append, runAll]
    split at ran
    · rename_i applies
      rw [if_pos applies]
      split at ran
      · exact inductionHypothesis ran
      · cases ran
    · rename_i skipped
      rw [if_neg skipped]
      exact inductionHypothesis ran

/-- Passes that only change a schedule do not fail. -/
theorem exists_runAll {passes : List Pass} (changes : ∀ pass ∈ passes, pass ≠ .verify)
    (schedule : Schedule) (findings : Findings) :
    ∃ final, runAll passes schedule findings = .ok (final, findings) := by
  induction passes generalizing schedule with
  | nil => exact ⟨schedule, rfl⟩
  | cons pass rest inductionHypothesis =>
    have later := inductionHypothesis fun other member => changes other (.tail _ member)
    rw [runAll, run_of_ne_verify (changes pass (.head _))]
    split
    · exact later (pass.transform schedule)
    · exact later schedule

/-- Passes run one part after the other. -/
theorem runAll_append {first second : List Pass} {schedule next : Schedule}
    {findings noted : Findings}
    (ran : runAll (first ++ second) schedule findings = .ok (next, noted)) :
    ∃ middle between, runAll first schedule findings = .ok (middle, between) ∧
      runAll second middle between = .ok (next, noted) := by
  induction first generalizing schedule findings with
  | nil => exact ⟨schedule, findings, rfl, ran⟩
  | cons pass rest inductionHypothesis =>
    rw [List.cons_append, runAll] at ran
    rw [runAll]
    split
    · rename_i applies
      rw [if_pos applies] at ran
      split at ran
      · exact inductionHypothesis ran
      · cases ran
    · rename_i skipped
      rw [if_neg skipped] at ran
      exact inductionHypothesis ran

end Pass

/-- Passes in a row keep a stable property. -/
theorem Layer.Stable.keeps_runAll {holds : Layer → Prop} (stable : Layer.Stable holds)
    {passes : List Pass} {schedule final : Schedule} {findings noted : Findings}
    (ran : Pass.runAll passes schedule findings = .ok (final, noted)) :
    Keeps holds schedule final := by
  induction passes generalizing schedule findings with
  | nil =>
    obtain ⟨rfl, -⟩ := Prod.mk.inj (Except.ok.inj ran)
    exact id
  | cons pass rest inductionHypothesis =>
    rw [Pass.runAll] at ran
    split at ran
    · split at ran
      · rename_i middle between here
        obtain ⟨rfl, -⟩ := Pass.run_eq_ok here
        exact fun before => inductionHypothesis ran (stable.keeps_transform pass schedule before)
      · cases ran
    · exact inductionHypothesis ran

namespace Config

/-- An optional pass is the pass itself or none. -/
theorem eq_of_mem_optional {on : Bool} {pass listed : Pass} (member : listed ∈ optional on pass) :
    listed = pass := by
  rw [optional] at member
  split at member
  · exact List.mem_singleton.mp member
  · simp at member

/-- The passes before the removal of the tail are all rewritings. -/
theorem ne_dropTail_of_mem {config : Config} {pass : Pass}
    (member : pass ∈ optional config.hoistCoords .hoistCoords ++ [.sweep 1, .zForm] ++
      optional config.rollLoops .rollLoops ++ [.sweeps config.finalRounds, .dropIdleRotations] ++
      optional config.mergeRotations .mergeRotations ++
      optional config.dropRotationsBeforeResets .dropRotationsBeforeResets) :
    pass ≠ .dropTail := by
  rintro rfl
  simp only [List.mem_append] at member
  rcases member with ((((here | here) | here) | here) | here) | here
  · cases eq_of_mem_optional here
  · simp at here
  · cases eq_of_mem_optional here
  · simp [Pass.sweeps] at here
  · cases eq_of_mem_optional here
  · cases eq_of_mem_optional here

/-- What the passes make of a schedule: a rewriting, less its tail for a whole
    circuit. -/
theorem passes_eq_ok {config : Config} {schedule final : Schedule} {noted : Findings}
    (ran : Pass.runAll config.passes schedule config.findings = .ok (final, noted)) :
    ∃ rewritten dropped, Rewrites Layer.WellFormed schedule rewritten ∧
      Rewrites Layer.WellFormed dropped final ∧
      dropped = if config.wholeCircuit then Schedule.withoutTail rewritten else rewritten := by
  rw [passes] at ran
  obtain ⟨dropped, afterwards, ranDropped, ranVerified⟩ := Pass.runAll_append ran
  obtain ⟨rewritten, between, ranRewritten, ranTail⟩ := Pass.runAll_append ranDropped
  obtain ⟨rewrites, flag⟩ := Pass.rewrites_runAll (fun _ => ne_dropTail_of_mem) ranRewritten
  obtain ⟨verified, -⟩ := Pass.rewrites_runAll (fun pass member => by
    rw [eq_of_mem_optional member]
    simp) ranVerified
  refine ⟨rewritten, dropped, rewrites, verified, ?_⟩
  have sameFlag : between.wholeCircuit = config.wholeCircuit := flag
  rw [Pass.runAll, Pass.applies, sameFlag] at ranTail
  split at ranTail
  · rename_i whole
    obtain ⟨rfl, -⟩ := Prod.mk.inj (Except.ok.inj ranTail)
    rw [if_pos whole]
    rfl
  · rename_i fragment
    obtain ⟨rfl, -⟩ := Prod.mk.inj (Except.ok.inj ranTail)
    rw [if_neg fragment]

/-- The parts of a run that gives an output. -/
theorem runOnce_eq_ok {config : Config} {circuit : Circuit} {output : Output}
    (ran : config.runOnce circuit = .ok output) :
    ∃ schedule final, Schedule.ofCircuit circuit = .ok schedule ∧
      Pass.runAll config.passes schedule config.findings = .ok (final, output.findings) ∧
      final.toCircuit = .ok output.circuit := by
  rw [runOnce] at ran
  split at ran
  · cases ran
  · rename_i schedule grouped
    split at ran
    · cases ran
    · rename_i final noted passed
      split at ran
      · cases ran
      · rename_i written toCircuit
        obtain rfl := Except.ok.inj ran
        exact ⟨schedule, final, grouped, passed, toCircuit⟩

/-! ### Settling -/

/-- The preferred one of some outputs is one of them. -/
theorem foldl_preferred_mem (first : Output) (outputs : List Output) :
    outputs.foldl Output.preferred first ∈ first :: outputs := by
  induction outputs generalizing first with
  | nil => exact .head _
  | cons candidate rest inductionHypothesis =>
    have chosen := inductionHypothesis (first.preferred candidate)
    rw [List.foldl_cons]
    rcases List.mem_cons.mp chosen with same | later
    · rw [same, Output.preferred]
      split
      · exact .tail _ (.head _)
      · exact .head _
    · exact .tail _ (.tail _ later)

/-- What settling does after one more run: it stops because no output may be
    remembered any more, goes on with a new output, or chooses from a cycle. -/
theorem settle_cases {config : Config} {spare : Nat} {earlier : List Output}
    {latest output : Output} (settled : config.settle spare earlier latest = .ok output) :
    ∃ next, config.runOnce latest.circuit = .ok next ∧
      ((Output.cycleFrom (earlier ++ [latest]) next = [] ∧ spare = 0 ∧ output = next) ∨
        (∃ fewer, Output.cycleFrom (earlier ++ [latest]) next = [] ∧ spare = fewer + 1 ∧
          config.settle fewer (earlier ++ [latest]) next = .ok output) ∨
        (Output.cycleFrom (earlier ++ [latest]) next ≠ [] ∧
          output = (Output.cycleFrom (earlier ++ [latest]) next).foldl Output.preferred next)) := by
  rw [settle] at settled
  split at settled
  · cases settled
  · rename_i next ran
    refine ⟨next, ran, ?_⟩
    dsimp only at settled
    split at settled
    · rename_i new
      exact .inl ⟨new, rfl, (Except.ok.inj settled).symm⟩
    · rename_i fewer new
      exact .inr (.inl ⟨fewer, new, rfl, settled⟩)
    · rename_i left _ _ notNew notNewEither
      refine .inr (.inr ⟨fun none => ?_, (Except.ok.inj settled).symm⟩)
      cases left with
      | zero => exact notNew none rfl
      | succ fewer => exact notNewEither fewer none rfl

section

variable {config : Config} {holds : Circuit → Prop}
  (step : ∀ circuit output, holds circuit → config.runOnce circuit = .ok output →
    holds output.circuit)

include step

/-- What one run preserves holds of the output chosen from a cycle. -/
theorem holds_foldl_preferred {earlier : List Output} {latest next : Output}
    (before : ∀ seen ∈ earlier, holds seen.circuit) (here : holds latest.circuit)
    (ran : config.runOnce latest.circuit = .ok next) :
    holds ((Output.cycleFrom (earlier ++ [latest]) next).foldl Output.preferred next).circuit := by
  rcases List.mem_cons.mp (foldl_preferred_mem next
    (Output.cycleFrom (earlier ++ [latest]) next)) with same | member
  · rw [same]
    exact step latest.circuit next here ran
  · have listed := (List.dropWhile_sublist _).subset member
    rcases List.mem_append.mp listed with older | last
    · exact before _ older
    · rw [List.mem_singleton.mp last]
      exact here

/-- What one run preserves, settling preserves. -/
theorem holds_settle {spare : Nat} {earlier : List Output} {latest output : Output}
    (before : ∀ seen ∈ earlier, holds seen.circuit) (here : holds latest.circuit)
    (settled : config.settle spare earlier latest = .ok output) : holds output.circuit := by
  induction spare generalizing earlier latest with
  | zero =>
    obtain ⟨next, ran, ⟨-, -, rfl⟩ | ⟨fewer, -, none, -⟩ | ⟨-, rfl⟩⟩ := settle_cases settled
    · exact step latest.circuit output here ran
    · cases none
    · exact holds_foldl_preferred step before here ran
  | succ spare inductionHypothesis =>
    obtain ⟨next, ran, ⟨-, none, -⟩ | ⟨fewer, -, less, later⟩ | ⟨-, rfl⟩⟩ := settle_cases settled
    · cases none
    · obtain rfl := Nat.succ.inj less
      refine inductionHypothesis (fun seen member => ?_) (step latest.circuit next here ran) later
      rcases List.mem_append.mp member with older | last
      · exact before seen older
      · exact (List.mem_singleton.mp last) ▸ here
    · exact holds_foldl_preferred step before here ran

/-- What one run preserves, canonicalization preserves. -/
theorem holds_canonicalizeWith {circuit : Circuit} {output : Output} (start : holds circuit)
    (done : circuit.canonicalizeWith config = .ok output) : holds output.circuit := by
  rw [Circuit.canonicalizeWith] at done
  split at done
  · cases done
  · split at done
    · cases done
    · rename_i first ran
      exact holds_settle step (by simp) (step circuit first start ran) done

end

/-- What every run gives its output holds of the output of canonicalization. -/
theorem established_canonicalizeWith {config : Config} (reached holds : Circuit → Prop)
    (step : ∀ circuit output, reached circuit → config.runOnce circuit = .ok output →
      reached output.circuit ∧ holds output.circuit)
    {circuit : Circuit} {output : Output} (start : reached circuit)
    (done : circuit.canonicalizeWith config = .ok output) : holds output.circuit := by
  have both : ∀ before after, reached before ∧ holds before → config.runOnce before = .ok after →
      reached after.circuit ∧ holds after.circuit := fun before after here =>
    step before after here.1
  rw [Circuit.canonicalizeWith] at done
  split at done
  · cases done
  · split at done
    · cases done
    · rename_i first ran
      exact (holds_settle both (by simp) (step circuit first start ran) done).2

end Config

end StabilizerLayers
