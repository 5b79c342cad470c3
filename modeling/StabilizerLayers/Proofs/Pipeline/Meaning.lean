import StabilizerLayers.Proofs.Circuit.RecordCounts
import StabilizerLayers.Proofs.Pipeline.Runs
import StabilizerLayers.Proofs.Schedule.Tails

/-!
# What canonicalization preserves

A fragment keeps its axis trace: its canonical form leads to the same wires and
frames, and leaves the same events on every wire and among the records.

A whole circuit may lose its tail: what is left out stands behind everything that
is measured, and every detector and observable stays.

No circuit loses, gains or moves a record. Every record that is counted back from
a detector or an observable is thus the same one as before.
-/

namespace StabilizerLayers

/-- Whether a circuit is sound. -/
structure Circuit.Sound (circuit : Circuit) : Prop where
  valid : circuit.Valid
  formed : circuit.FormsProducts

namespace Config

variable {config : Config} {circuit : Circuit} {output : Output}

/-- The passes leave a formed schedule of a sound circuit, which does what a schedule of
    the circuit does, less its tail for a whole circuit. -/
theorem passes_agree {grouped final : Schedule} {noted : Findings} (sound : circuit.Sound)
    (grouping : Schedule.ofCircuit circuit = .ok grouped)
    (passed : Pass.runAll config.passes grouped config.findings = .ok (final, noted)) :
    ∃ schedule, StandFor schedule circuit.actions ∧ Layer.AllFormed final ∧
      Agrees final.actions
        (Schedule.actions (if config.wholeCircuit then Schedule.withoutTail schedule
          else schedule)) := by
  obtain ⟨rewritten, dropped, rewrites, verified, rfl⟩ := passes_eq_ok passed
  have stands := (Schedule.standFor_ofCircuit sound.valid sound.formed grouping).rewrite rewrites
  have kept : Layer.AllFormed (if config.wholeCircuit then Schedule.withoutTail rewritten
      else rewritten) := by
    split
    · exact Schedule.allFormed_withoutTail stands.1
    · exact stands.1
  obtain ⟨finalFormed, finalSame⟩ := verified (Layer.allFormed_iff_everywhere.mp kept)
  exact ⟨rewritten, stands, Layer.allFormed_iff_everywhere.mpr finalFormed, finalSame⟩

/-- A run on a sound circuit writes a sound circuit, which does what a schedule of
    the circuit does, less its tail for a whole circuit. -/
theorem runOnce_agrees (sound : circuit.Sound) (ran : config.runOnce circuit = .ok output) :
    ∃ schedule, StandFor schedule circuit.actions ∧ output.circuit.Sound ∧
      Agrees output.circuit.actions
        (Schedule.actions (if config.wholeCircuit then Schedule.withoutTail schedule
          else schedule)) := by
  obtain ⟨grouped, final, grouping, passed, written⟩ := runOnce_eq_ok ran
  obtain ⟨schedule, stands, finalFormed, finalSame⟩ := passes_agree sound grouping passed
  obtain ⟨valid, formed, same⟩ := Schedule.agrees_toCircuit finalFormed written
  exact ⟨schedule, stands, ⟨valid, formed⟩, same.trans finalSame⟩

/-- A run on a fragment does what the fragment does. -/
theorem runOnce_fragment (fragment : config.wholeCircuit = false) (sound : circuit.Sound)
    (ran : config.runOnce circuit = .ok output) :
    output.circuit.Sound ∧ Agrees output.circuit.actions circuit.actions := by
  obtain ⟨schedule, stands, outputSound, same⟩ := runOnce_agrees sound ran
  rw [fragment] at same
  exact ⟨outputSound, same.trans stands.2⟩

/-- A run keeps the record stream. -/
theorem runOnce_records (sound : circuit.Sound) (ran : config.runOnce circuit = .ok output) :
    output.circuit.Sound ∧ output.circuit.records = circuit.records := by
  obtain ⟨schedule, stands, outputSound, same⟩ := runOnce_agrees sound ran
  refine ⟨outputSound, same.records.trans ?_⟩
  split
  · exact (Schedule.records_withoutTail schedule).trans stands.2.records
  · exact stands.2.records

/-- A run leaves out events of a tail, if any. -/
theorem runOnce_forgetsTail (sound : circuit.Sound) (ran : config.runOnce circuit = .ok output) :
    output.circuit.Sound ∧ ForgetsTail circuit.trace.events output.circuit.trace.events := by
  obtain ⟨schedule, stands, outputSound, same⟩ := runOnce_agrees sound ran
  have fullSame : Aligned Event.on circuit.trace.events
      (Placement.start.events (Schedule.actions schedule)) :=
    (stands.2.events Placement.start).symm
  refine ⟨outputSound, ForgetsTail.of_aligned ?_ fullSame (same.events Placement.start)⟩
  split
  · exact Schedule.forgetsTail_withoutTail schedule Placement.start
  · exact .refl _

end Config

namespace Circuit

/-- A circuit with gates, measurements of either kind, a detector, a block and a
    tail. -/
def sample : Circuit :=
  [.single (.onQubits (.exchange .Y) [0]),
    .single (.on (.measure .X) [.qubit 0 true, .qubit 1 false]),
    .single (.on .measureProduct [.pauli .X 0 false, .combiner, .pauli .Z 1 true]),
    .single (.on .detector [.record 1]),
    .block 2 [.single (.onQubits .cxSwap [0, 1]), .single (.onQubits (.measureReset .Y) [1])],
    .single (.onQubits (.reset .Z) [0])]

/-- The sample passes all checks. -/
theorem sample_valid : sample.Valid := by decide +kernel

/-- The sample has whole products. -/
theorem sample_formsProducts : sample.FormsProducts := by decide +kernel

/-- Canonicalization of a fragment keeps its axis trace. -/
theorem trace_canonicalizeWith {config : Config} {circuit : Circuit} {output : Output}
    (fragment : config.wholeCircuit = false) (valid : circuit.Valid)
    (formed : circuit.FormsProducts) (done : circuit.canonicalizeWith config = .ok output) :
    output.circuit.trace.Equivalent circuit.trace := by
  have step : ∀ before : Circuit, ∀ after : Output,
      before.Sound ∧ Agrees before.actions circuit.actions →
      config.runOnce before = .ok after →
      after.circuit.Sound ∧ Agrees after.circuit.actions circuit.actions := by
    intro before after reached ran
    obtain ⟨sound, same⟩ := Config.runOnce_fragment fragment reached.1 ran
    exact ⟨sound, same.trans reached.2⟩
  obtain ⟨-, same⟩ := Config.holds_canonicalizeWith step ⟨⟨valid, formed⟩, .refl _⟩ done
  exact same.equivalent

/-- As a fragment the sample keeps its trace, with the tail. -/
theorem trace_canonicalizeWith_sample :
    ∃ output, sample.canonicalizeWith { wholeCircuit := false } = .ok output ∧
      output.circuit.trace.Equivalent sample.trace := by
  obtain ⟨output, done⟩ : ∃ output,
      sample.canonicalizeWith { wholeCircuit := false } = .ok output :=
    exists_of_isOk (by decide +kernel)
  exact ⟨output, done, trace_canonicalizeWith rfl sample_valid sample_formsProducts done⟩

/-- Canonicalization keeps the record stream and the number of records. -/
theorem records_canonicalizeWith {config : Config} {circuit : Circuit} {output : Output}
    (valid : circuit.Valid) (formed : circuit.FormsProducts)
    (done : circuit.canonicalizeWith config = .ok output) :
    output.circuit.records = circuit.records ∧
      output.circuit.recordCount = circuit.recordCount := by
  have step : ∀ before : Circuit, ∀ after : Output,
      before.Sound ∧ before.records = circuit.records → config.runOnce before = .ok after →
      after.circuit.Sound ∧ after.circuit.records = circuit.records := by
    intro before after reached ran
    obtain ⟨sound, same⟩ := Config.runOnce_records reached.1 ran
    exact ⟨sound, same.trans reached.2⟩
  obtain ⟨sound, same⟩ := Config.holds_canonicalizeWith step ⟨⟨valid, formed⟩, rfl⟩ done
  refine ⟨same, ?_⟩
  rw [recordCount_eq sound.valid sound.formed, recordCount_eq valid formed, same]

/-- The sample keeps its records, those of the block in both rounds. -/
theorem records_canonicalizeWith_sample :
    ∃ output, sample.canonicalizeWith {} = .ok output ∧
      output.circuit.records = sample.records ∧
      output.circuit.recordCount = sample.recordCount := by
  obtain ⟨output, done⟩ : ∃ output, sample.canonicalizeWith {} = .ok output :=
    exists_of_isOk (by decide +kernel)
  exact ⟨output, done, records_canonicalizeWith sample_valid sample_formsProducts done⟩

/-- Canonicalization leaves out nothing but resets, operations on two qubits and
    feedback, all behind what is measured. -/
theorem events_canonicalizeWith {config : Config} {circuit : Circuit} {output : Output}
    (valid : circuit.Valid) (formed : circuit.FormsProducts)
    (done : circuit.canonicalizeWith config = .ok output) :
    ∃ seen tail rest,
      Aligned Event.on circuit.trace.events (seen ++ tail) ∧
      Aligned Event.on output.circuit.trace.events (seen ++ rest) ∧
      (∀ event ∈ tail, event.isQuiet = true) ∧ Thinned tail rest := by
  have step : ∀ before : Circuit, ∀ after : Output,
      before.Sound ∧ ForgetsTail circuit.trace.events before.trace.events →
      config.runOnce before = .ok after →
      after.circuit.Sound ∧
        ForgetsTail circuit.trace.events after.circuit.trace.events := by
    intro before after reached ran
    obtain ⟨sound, forgets⟩ := Config.runOnce_forgetsTail reached.1 ran
    exact ⟨sound, reached.2.trans forgets⟩
  exact (Config.holds_canonicalizeWith step ⟨⟨valid, formed⟩, .refl _⟩ done).2

/-- As a whole circuit the sample may lose its last reset. -/
theorem events_canonicalizeWith_sample :
    ∃ output, sample.canonicalizeWith {} = .ok output ∧
      ∃ seen tail rest,
        Aligned Event.on sample.trace.events (seen ++ tail) ∧
        Aligned Event.on output.circuit.trace.events (seen ++ rest) ∧
        (∀ event ∈ tail, event.isQuiet = true) ∧ Thinned tail rest := by
  obtain ⟨output, done⟩ : ∃ output, sample.canonicalizeWith {} = .ok output :=
    exists_of_isOk (by decide +kernel)
  exact ⟨output, done, events_canonicalizeWith sample_valid sample_formsProducts done⟩

end Circuit

end StabilizerLayers
