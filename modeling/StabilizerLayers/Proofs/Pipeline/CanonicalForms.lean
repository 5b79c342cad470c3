import StabilizerLayers.Proofs.Pipeline.Meaning
import StabilizerLayers.Proofs.Pipeline.Recurrence
import StabilizerLayers.Proofs.Schedule.Refusals
import StabilizerLayers.Proofs.Schedule.Slots

/-!
# Canonical forms

Whatever canonicalization returns is written in the canonical vocabulary, whichever
optional passes are left out: the Z-basis forms are always taken, no later pass leads
back, and writing joins no instructions that the vocabulary keeps apart.

On a valid circuit nothing but grouping can fail. The check of the vocabulary finds
nothing, all instructions that are to be written are valid, and what is written can be
grouped again. So canonicalization succeeds exactly if the circuit can be grouped, and
otherwise refuses the instruction that grouping refuses.

The schedule of a canonical form is one that can be run: between two ticks no qubit is
operated on twice.
-/

namespace StabilizerLayers

namespace Config

variable {config : Config} {circuit : Circuit} {schedule final : Schedule} {noted : Findings}

/-! ### Passes -/

/-- The passes up to the Z-basis forms. -/
def earlyPasses (config : Config) : List Pass :=
  optional config.hoistCoords .hoistCoords ++ [.sweep 1, .zForm]

/-- The passes between the Z-basis forms and the check of the vocabulary. -/
def latePasses (config : Config) : List Pass :=
  optional config.rollLoops .rollLoops ++ [.sweeps config.finalRounds, .dropIdleRotations] ++
    optional config.mergeRotations .mergeRotations ++
    optional config.dropRotationsBeforeResets .dropRotationsBeforeResets ++ [.dropTail]

/-- The passes are early ones, late ones and the check. -/
theorem passes_eq (config : Config) :
    config.passes =
      config.earlyPasses ++ (config.latePasses ++ optional config.verify .verify) := by
  simp [passes, earlyPasses, latePasses]

/-- The early passes end in Z-basis forms. -/
theorem alongZ_of_earlyPasses {findings : Findings}
    (ran : Pass.runAll config.earlyPasses schedule findings = .ok (final, noted)) :
    Layer.Everywhere Layer.AlongZ final := by
  rw [earlyPasses, List.append_cons] at ran
  obtain ⟨middle, between, -, last⟩ := Pass.runAll_append ran
  obtain ⟨rfl, -⟩ := Prod.mk.inj (Except.ok.inj last)
  exact Schedule.everywhere_alongZ_zForm middle

/-- The passes bring a schedule to Z-basis forms. -/
theorem alongZ_of_passes
    (ran : Pass.runAll config.passes schedule config.findings = .ok (final, noted)) :
    Layer.Everywhere Layer.AlongZ final := by
  rw [passes_eq] at ran
  obtain ⟨middle, between, early, late⟩ := Pass.runAll_append ran
  exact Layer.stable_alongZ.keeps_runAll late (alongZ_of_earlyPasses early)

/-- The passes do not fail. -/
theorem exists_runAll_passes (config : Config) (schedule : Schedule) :
    ∃ final noted, Pass.runAll config.passes schedule config.findings = .ok (final, noted) := by
  have changes : ∀ pass ∈ config.earlyPasses ++ config.latePasses, pass ≠ .verify := by
    rintro pass member rfl
    simp only [earlyPasses, latePasses, List.mem_append, Pass.sweeps] at member
    rcases member with (here | here) | ((((here | here) | here) | here) | here)
    all_goals first | cases eq_of_mem_optional here | simp at here
  obtain ⟨middle, early⟩ := Pass.exists_runAll
    (fun pass member => changes pass (List.mem_append_left _ member)) schedule config.findings
  obtain ⟨final, late⟩ := Pass.exists_runAll
    (fun pass member => changes pass (List.mem_append_right _ member)) middle config.findings
  have alongZ := Layer.stable_alongZ.keeps_runAll late (alongZ_of_earlyPasses early)
  rw [passes_eq, Pass.runAll_append_of_ok early, Pass.runAll_append_of_ok late]
  cases config.verify with
  | false => exact ⟨final, config.findings, rfl⟩
  | true =>
    refine ⟨final, config.findings.insert .census final.census, ?_⟩
    simp [optional, Pass.runAll, Pass.applies, Pass.run, Pass.work_verify,
      Schedule.outsideZBasis?_eq_none_iff.mpr alongZ]

/-! ### Runs -/

/-- What the parts of a run follow and lead to. -/
theorem canonical_runOnce {output : Output} (ran : config.runOnce circuit = .ok output) :
    output.circuit.Valid ∧
      ∀ instruction ∈ Operation.instructionsAll output.circuit,
        instruction.isCanonical = true := by
  obtain ⟨schedule, final, grouped, passed, written⟩ := runOnce_eq_ok ran
  have follows := (Layer.stable_follows _).keeps_runAll passed
    (Schedule.follows_ofCircuit_grouped grouped)
  have parities : Layer.Everywhere Layer.HoldsParities final :=
    follows.imp fun layer _ here => Layer.holdsParities_of_follows (fun _ => id) here
  refine ⟨Schedule.valid_toCircuit parities written, ?_⟩
  obtain ⟨-, operations⟩ := (Schedule.toCircuit_eq_ok_iff parities).mp written
  rw [operations]
  exact Schedule.isCanonical_of_mem_operations follows (alongZ_of_passes passed)

/-- A run on a valid circuit that can be grouped gives an output. -/
theorem exists_runOnce_of_valid (config : Config) (valid : circuit.Valid)
    (grouped : Schedule.ofCircuit circuit = .ok schedule) :
    ∃ output, config.runOnce circuit = .ok output := by
  obtain ⟨final, noted, passed⟩ := exists_runAll_passes config schedule
  have follows := (Layer.stable_follows _).keeps_runAll passed
    (Schedule.follows_ofCircuit_valid valid grouped)
  have parities : Layer.Everywhere Layer.HoldsParities final :=
    follows.imp fun layer _ here => Layer.holdsParities_of_follows (fun _ => And.left) here
  have writable : Layer.Everywhere Layer.Writable final :=
    follows.imp fun layer _ here => Layer.writable_of_follows here
  have written := (Schedule.toCircuit_eq_ok_iff parities).mpr ⟨writable, rfl⟩
  exact ⟨⟨final.operations, noted⟩, by rw [runOnce, grouped]; simp [passed, written]⟩

/-- Any number of runs on a valid circuit that can be grouped succeeds. -/
theorem exists_runs_of_valid (config : Config) (valid : circuit.Valid)
    (grouped : Schedule.ofCircuit circuit = .ok schedule) (count : Nat) :
    ∃ reached, config.runs count circuit = .ok reached := by
  induction count generalizing circuit schedule with
  | zero => exact ⟨circuit, rfl⟩
  | succ count inductionHypothesis =>
    obtain ⟨output, ran⟩ := exists_runOnce_of_valid config valid grouped
    obtain ⟨outputValid, canonical⟩ := canonical_runOnce ran
    obtain ⟨next, regrouped⟩ := Schedule.exists_ofCircuit_of_isCanonical canonical
    obtain ⟨reached, later⟩ := inductionHypothesis outputValid regrouped
    exact ⟨reached, by rw [runs, ran]; exact later⟩

/-- A run on a sound circuit gives spread slots. -/
theorem spreadsSlots_runOnce {output : Output} (sound : circuit.Sound)
    (ran : config.runOnce circuit = .ok output) : output.circuit.SpreadsSlots := by
  obtain ⟨schedule, final, grouped, passed, written⟩ := runOnce_eq_ok ran
  have follows := (Layer.stable_follows _).keeps_runAll passed
    (Schedule.follows_ofCircuit_valid sound.valid grouped)
  have apart := Layer.stable_apart.keeps_runAll passed
    (Schedule.apart_ofCircuit sound.formed grouped)
  obtain ⟨-, -, formed, -⟩ := passes_agree sound grouped passed
  have alongZ := alongZ_of_passes passed
  have spreadable : Layer.Everywhere Layer.Spreadable final := by
    refine (((Layer.allFormed_iff_everywhere.mp formed).and apart).and (alongZ.and follows)).imp ?_
    rintro layer - ⟨⟨wellFormed, separate⟩, canonical, ruled⟩
    exact ⟨wellFormed, separate, canonical, Layer.writable_of_follows ruled,
      Layer.holdsParities_of_follows (fun _ => And.left) ruled⟩
  obtain ⟨-, operations⟩ := (Schedule.toCircuit_eq_ok_iff
    (spreadable.imp fun _ _ here => here.parities)).mp written
  rw [operations]
  exact Schedule.spreadsSlots_operations spreadable

end Config

namespace Circuit

/-- A circuit that cannot be grouped is refused as grouping refuses it. -/
theorem canonicalizeWith_eq_error {config : Config} {circuit : Circuit} {fault : TransformError}
    (accepted : config.validate = .ok ()) (refused : Schedule.ofCircuit circuit = .error fault) :
    circuit.canonicalizeWith config = .error fault := by
  simp [canonicalizeWith, accepted, Config.runOnce, refused]

/-- Canonicalization of a valid circuit succeeds exactly if the circuit can be grouped,
    and otherwise fails as grouping does, at an instruction of the circuit. No run on
    what earlier runs have reached is refused. -/
theorem exists_canonicalizeWith_iff (config : Config) {circuit : Circuit}
    (valid : circuit.Valid) (accepted : config.validate = .ok ()) :
    ((∃ output, circuit.canonicalizeWith config = .ok output) ↔
      ∃ schedule, Schedule.ofCircuit circuit = .ok schedule) ∧
    (∀ fault, circuit.canonicalizeWith config = .error fault →
      Schedule.ofCircuit circuit = .error fault ∧
        ∃ instruction ∈ Operation.instructionsAll circuit, ∃ reason,
          fault = .unsupported instruction reason) ∧
    ∀ schedule, Schedule.ofCircuit circuit = .ok schedule →
      ∀ count, ∃ reached, config.runs count circuit = .ok reached := by
  cases grouped : Schedule.ofCircuit circuit with
  | error fault =>
    rw [canonicalizeWith_eq_error accepted grouped]
    refine ⟨by simp, fun cause same => ?_, nofun⟩
    obtain rfl := Except.error.inj same
    exact ⟨rfl, Schedule.ofCircuit_eq_error grouped⟩
  | ok schedule =>
    have works := Config.exists_runs_of_valid config valid grouped
    obtain ⟨output, done⟩ := Config.exists_canonicalizeWith accepted works
    refine ⟨⟨fun _ => ⟨schedule, rfl⟩, fun _ => ⟨output, done⟩⟩, fun fault failed => ?_, ?_⟩
    · cases done.symm.trans failed
    · exact fun _ _ => works

/-- The sample can be grouped, so it has a canonical form and no run fails. -/
theorem exists_canonicalizeWith_iff_sample :
    sample.Valid ∧ Config.validate {} = .ok () ∧
      (∃ output, sample.canonicalizeWith {} = .ok output) ∧
      ∀ count, ∃ reached, Config.runs {} count sample = .ok reached := by
  obtain ⟨schedule, grouped⟩ : ∃ schedule, Schedule.ofCircuit sample = .ok schedule :=
    exists_of_isOk (by decide +kernel)
  obtain ⟨succeeds, -, works⟩ :=
    exists_canonicalizeWith_iff {} sample_valid rfl
  exact ⟨sample_valid, rfl, succeeds.mpr ⟨schedule, grouped⟩, works schedule grouped⟩

/-- All instructions of a canonical form belong to the canonical vocabulary. -/
theorem isCanonical_canonicalizeWith {config : Config} {circuit : Circuit} {output : Output}
    (done : circuit.canonicalizeWith config = .ok output) :
    ∀ instruction ∈ Operation.instructionsAll output.circuit, instruction.isCanonical = true := by
  refine Config.established_canonicalizeWith (fun _ => True)
    (fun reached => ∀ instruction ∈ Operation.instructionsAll reached,
      instruction.isCanonical = true) (fun _ _ _ ran => ?_) trivial done
  exact ⟨trivial, (Config.canonical_runOnce ran).2⟩

/-- The canonical form of the sample has the vocabulary even where it is not verified. -/
theorem isCanonical_canonicalizeWith_sample :
    ∃ output, sample.canonicalizeWith { verify := false } = .ok output ∧
      ∀ instruction ∈ Operation.instructionsAll output.circuit,
        instruction.isCanonical = true := by
  obtain ⟨output, done⟩ : ∃ output, sample.canonicalizeWith { verify := false } = .ok output :=
    exists_of_isOk (by decide +kernel)
  exact ⟨output, done, isCanonical_canonicalizeWith done⟩

/-- Between two ticks of a canonical form, repetitions written out, no qubit belongs to
    two units. -/
theorem spreadsSlots_canonicalizeWith {config : Config} {circuit : Circuit} {output : Output}
    (valid : circuit.Valid) (formed : circuit.FormsProducts)
    (done : circuit.canonicalizeWith config = .ok output) : output.circuit.SpreadsSlots := by
  refine Config.established_canonicalizeWith Sound SpreadsSlots (fun before after sound ran => ?_)
    ⟨valid, formed⟩ done
  obtain ⟨-, -, outputSound, -⟩ := Config.runOnce_agrees sound ran
  exact ⟨outputSound, Config.spreadsSlots_runOnce sound ran⟩

/-- In the canonical form of the sample no qubit belongs to two units between two ticks. -/
theorem spreadsSlots_canonicalizeWith_sample :
    sample.Valid ∧ sample.FormsProducts ∧
      ∃ output, sample.canonicalizeWith {} = .ok output ∧ output.circuit.SpreadsSlots := by
  obtain ⟨output, done⟩ : ∃ output, sample.canonicalizeWith {} = .ok output :=
    exists_of_isOk (by decide +kernel)
  exact ⟨sample_valid, sample_formsProducts, output, done,
    spreadsSlots_canonicalizeWith sample_valid sample_formsProducts done⟩

end Circuit

end StabilizerLayers
