import StabilizerLayers.Proofs.Circuit.RecordCounts

/-!
# Joined instructions, portion by portion

An instruction applies its gate to portions of its targets: single targets, pairs, products,
or all targets at once. An instruction that is joined to the latest one should leave the
portions of both, one list behind the other, and add its records.

Single targets always do. Pairs do because a valid instruction on pairs has no odd target.
Products need not: a check asks for operators and combiners, not for their order. Two lists
run into each other where a combiner stands at the place where they meet, and the count of
records, which stops at zero, is not a sum if one list has more operators than combiners and
the other has fewer. `fuse_portions` says that nothing else can go wrong.
-/

namespace StabilizerLayers

/-! ### Portions -/

namespace Instruction

/-- The targets to which a gate is applied at a time. Of a gate outside the vocabulary
    nothing is known, so all its targets stay together. -/
def targetPortions (instruction : Instruction) : List (List Target) :=
  match instruction.gate? with
  | none => [instruction.targets]
  | some .measureProduct => products instruction.targets
  | some gate =>
    match gate.shape with
    | .single => instruction.targets.map ([·])
    | .pair => instruction.targetPairs.map fun pair => [pair.1, pair.2]
    | .free | .none => [instruction.targets]

/-- One instruction for each portion, with the operator and the arguments of the whole. -/
def portions (instruction : Instruction) : List Instruction :=
  instruction.targetPortions.map fun targets => { instruction with targets := targets }

/-- Whether two instructions are the same, with arguments compared as numbers unless they
    are kept as they are. -/
structure Alike (first second : Instruction) : Prop where
  operator : first.operator = second.operator
  targets : first.targets = second.targets
  arguments : first.arguments = second.arguments ∨ (first.arguments == second.arguments) = true

instance : Std.Refl Alike := ⟨fun _ => ⟨rfl, rfl, .inl rfl⟩⟩

/-- The portions of an instruction have the portions of its targets. -/
theorem map_targets_portions (instruction : Instruction) :
    instruction.portions.map targets = instruction.targetPortions := by
  rw [portions, List.map_map]
  exact List.map_id _

/-- Instructions that are alike have the same targets. -/
theorem map_targets_of_alike {first second : List Instruction}
    (alike : List.Forall₂ Alike first second) : first.map targets = second.map targets := by
  induction alike with
  | nil => rfl
  | cons same _ inductionHypothesis =>
    rw [List.map_cons, List.map_cons, same.targets, inductionHypothesis]

end Instruction

/-- Portions of the instructions outside blocks. -/
def Circuit.portions (circuit : Circuit) : List Instruction :=
  circuit.flatMap fun
    | .single instruction => instruction.portions
    | .block _ _ => []

/-! ### Two instructions -/

/-- Two lists of products are cut apart again unless a combiner stands where they meet. -/
theorem products_append_iff {first second : List Target} :
    products (first ++ second) = products first ++ products second ↔
      ∀ last ∈ first.getLast?, ∀ next ∈ second.head?, Target.joins last next = false := by
  constructor
  · intro apart last ends next starts
    have firstSome : first ≠ [] := by
      rintro rfl
      cases ends
    have secondSome : second ≠ [] := by
      rintro rfl
      cases starts
    -- No combiner joins two neighbouring cuts of a list, so none joins those at the seam.
    have cuts := List.isChain_getLast_head_splitBy Target.joins (first ++ second)
    rw [← products, apart] at cuts
    have seam := (List.isChain_append.mp cuts).2.2
    have firstCuts : first.splitBy Target.joins ≠ [] := List.splitBy_ne_nil.mpr firstSome
    have secondCuts : second.splitBy Target.joins ≠ [] := List.splitBy_ne_nil.mpr secondSome
    obtain ⟨_, _, free⟩ := seam _ (List.getLast_mem_getLast? firstCuts) _
      (List.head_mem_head? secondCuts)
    rw [List.getLast_getLast_splitBy _ firstSome, List.head_head_splitBy _ secondSome] at free
    rwa [List.getLast_of_mem_getLast? ends, List.head_of_mem_head? starts] at free
  · intro free
    exact List.splitBy_append free

namespace Instruction

variable {latest next : Instruction}

/-- Whether a combiner joins the last product of one instruction with the first of another. -/
def RunsInto (latest next : Instruction) : Prop :=
  next.gate? = some .measureProduct ∧
    ∃ last ∈ latest.targets.getLast?, ∃ first ∈ next.targets.head?, Target.joins last first = true

/-- Whether one of two lists of products has more operators than combiners and the other one
    has fewer. -/
def Offsets (latest next : Instruction) : Prop :=
  next.gate? = some .measureProduct ∧
    (latest.targets.count .combiner < latest.targets.countP Target.isPauli ∧
        next.targets.countP Target.isPauli < next.targets.count .combiner ∨
      latest.targets.countP Target.isPauli < latest.targets.count .combiner ∧
        next.targets.count .combiner < next.targets.countP Target.isPauli)

/-- A joined instruction has the portions of both, unless products run into each other. -/
theorem targetPortions_withTargets_iff (fuses : Builder.fuses latest next = true)
    (valid : latest.validate = .ok ()) :
    (latest.withTargets next.targets).targetPortions =
        latest.targetPortions ++ next.targetPortions ↔ ¬ latest.RunsInto next := by
  obtain ⟨gate, latestApplied, nextApplied, fusable⟩ := gate?_of_fuses fuses
  have applied : (latest.withTargets next.targets).gate? = some gate := latestApplied
  have separate (other : gate ≠ .measureProduct) : ¬ latest.RunsInto next := by
    rintro ⟨measures, -⟩
    exact other (Option.some.inj (nextApplied.symm.trans measures))
  rw [targetPortions, targetPortions, targetPortions, applied, latestApplied, nextApplied]
  cases gate with
  | measureProduct =>
    rw [RunsInto, and_iff_right nextApplied]
    apply products_append_iff.trans
    simp
  | tick | qubitCoords | detector | observableInclude | shiftCoords | correlatedError
  | elseCorrelatedError => cases fusable
  | controlled _ _ | swap | iswap | iswapDag | sqrtProduct _ _ | cxSwap | swapCx | czSwap
  | depolarize2 | pauliChannel2 =>
    have even := (validatePairs_of_validate latestApplied rfl valid).1
    have pairs : (latest.withTargets next.targets).targetPairs =
        latest.targetPairs ++ next.targetPairs := consecutivePairs_append even next.targets
    apply iff_of_true _ (separate nofun)
    simp only [Gate.shape, pairs, List.map_append]
  | identity | pauli _ | exchange _ | sqrtPauli _ _ | cycleXYZ | cycleZYX | reset _ | measure _
  | measureReset _ | pauliError _ | depolarize1 | pauliChannel1 =>
    apply iff_of_true _ (separate nofun)
    exact List.map_append

/-- A joined instruction never counts more records than both, and it counts as many unless
    the surplus of one is used up by the other. -/
theorem recordCount_withTargets (fuses : Builder.fuses latest next = true) :
    (latest.withTargets next.targets).recordCount ≤ latest.recordCount + next.recordCount ∧
      ((latest.withTargets next.targets).recordCount = latest.recordCount + next.recordCount ↔
        ¬ latest.Offsets next) := by
  obtain ⟨gate, latestApplied, nextApplied, -⟩ := gate?_of_fuses fuses
  have applied : (latest.withTargets next.targets).gate? = some gate := latestApplied
  have separate (other : gate ≠ .measureProduct) : ¬ latest.Offsets next := by
    rintro ⟨measures, -⟩
    exact other (Option.some.inj (nextApplied.symm.trans measures))
  rw [recordCount, recordCount, recordCount, applied, latestApplied, nextApplied]
  by_cases measures : gate = .measureProduct
  · subst measures
    simp only [withTargets, List.countP_append, List.count_append, Offsets,
      and_iff_right nextApplied]
    omega
  · have same : (latest.withTargets next.targets).targets.length =
        latest.targets.length + next.targets.length := List.length_append
    cases gate with
    | measureProduct => contradiction
    | measure _ | measureReset _ => exact ⟨same.le, iff_of_true same (separate measures)⟩
    | _ => exact ⟨Nat.le_refl 0, iff_of_true rfl (separate measures)⟩

/-- Well-formed products neither run into each other nor use up each other's surplus. -/
theorem not_runsInto_of_formsProducts (fuses : Builder.fuses latest next = true)
    (formed : latest.FormsProducts) (nextFormed : next.FormsProducts) :
    ¬ latest.RunsInto next ∧ ¬ latest.Offsets next := by
  obtain ⟨gate, latestApplied, nextApplied, -⟩ := gate?_of_fuses fuses
  constructor
  · rintro ⟨measures, last, ends, first, starts, joins⟩
    obtain rfl : gate = .measureProduct := Option.some.inj (nextApplied.symm.trans measures)
    have apart := joins_of_isPauli ((formed latestApplied).isPauli_of_getLast? ends)
      ((nextFormed nextApplied).isPauli_of_head? starts)
    exact Bool.eq_false_iff.mp apart joins
  · rintro ⟨measures, offset⟩
    obtain rfl : gate = .measureProduct := Option.some.inj (nextApplied.symm.trans measures)
    have operators := countP_isPauli (formed latestApplied)
    have nextOperators := countP_isPauli (nextFormed nextApplied)
    omega

end Instruction

/-! ### Builders -/

/-- Counts of operations one after the other are added. -/
theorem Operation.executedAll_append (measure : Instruction → Nat)
    (first second : List Operation) :
    executedAll measure (first ++ second) =
      Tally.add (executedAll measure first) (executedAll measure second) := by
  rw [executedAll_eq_min, executedAll_eq_min, executedAll_eq_min, streamAll_append,
    List.map_append, List.sum_append, Tally.add]
  omega

namespace Circuit

/-- A last instruction adds its portions. -/
theorem portions_concat (circuit : Circuit) (instruction : Instruction) :
    portions (circuit ++ [.single instruction]) = circuit.portions ++ instruction.portions := by
  rw [portions, List.flatMap_append, List.flatMap_singleton]
  rfl

/-- A last instruction adds its records, as far as the count can go. -/
theorem recordCount_concat (circuit : Circuit) (instruction : Instruction) :
    recordCount (circuit ++ [.single instruction]) =
      Tally.add circuit.recordCount instruction.recordCount := by
  rw [recordCount, Operation.executedAll_append]
  simp only [recordCount, Operation.executedAll, Operation.executed, Tally.add]
  omega

end Circuit

namespace Builder

/-- The instruction to which the next one may be joined, with the circuit before it. -/
def latest? (builder : Builder) : Option (Circuit × Instruction) :=
  match builder.latestFirst with
  | .single latest :: earlier => some (earlier.reverse, latest)
  | _ => none

/-- Whether an instruction is joined to the latest one and the two are in some relation. -/
def Joins (builder : Builder) (relation : Instruction → Instruction → Prop)
    (instruction : Instruction) : Prop :=
  ∃ earlier latest, builder.latest? = some (earlier, latest) ∧
    fuses latest instruction = true ∧ relation latest instruction

/-- The latest instruction is the last of the circuit. -/
theorem circuit_of_latest? {builder : Builder} {earlier : Circuit} {latest : Instruction}
    (held : builder.latest? = some (earlier, latest)) :
    builder.circuit = earlier ++ [.single latest] := by
  obtain ⟨latestFirst⟩ := builder
  rw [latest?] at held
  split at held
  · rename_i shape
    cases held
    rw [circuit, shape, List.reverse_cons]
  · contradiction

/-- What joining a valid instruction can do: it extends the latest instruction, or it is
    written behind what is there. -/
theorem fuse_cases (builder : Builder) {instruction : Instruction}
    (valid : instruction.validate = .ok ()) :
    (∃ earlier latest next, builder.latest? = some (earlier, latest) ∧
        fuses latest instruction = true ∧ builder.fuse instruction = .ok next ∧
        next.circuit = earlier ++ [.single (latest.withTargets instruction.targets)]) ∨
      (∀ relation, ¬ builder.Joins relation instruction) ∧
        builder.fuse instruction = .ok (builder.push (.single instruction)) := by
  obtain ⟨latestFirst⟩ := builder
  rw [fuse, valid]
  have untouched (other : latest? ⟨latestFirst⟩ = none)
      (relation : Instruction → Instruction → Prop) :
      ¬ Joins ⟨latestFirst⟩ relation instruction := by
    rintro ⟨_, _, held, -⟩
    cases other.symm.trans held
  cases latestFirst with
  | nil => exact .inr ⟨untouched rfl, rfl⟩
  | cons operation earlier =>
    cases operation with
    | block repetitions body => exact .inr ⟨untouched rfl, rfl⟩
    | single latest =>
      by_cases joined : fuses latest instruction = true
      · refine .inl ⟨earlier.reverse, latest, _, rfl, joined, if_pos joined, ?_⟩
        exact List.reverse_cons
      · refine .inr ⟨?_, if_neg joined⟩
        rintro relation ⟨_, _, held, allowed, -⟩
        cases held
        exact joined allowed

/-- The latest instruction belongs to the circuit. -/
theorem mem_instructionsAll_of_latest? {builder : Builder} {earlier : Circuit}
    {latest : Instruction} (held : builder.latest? = some (earlier, latest)) :
    latest ∈ Operation.instructionsAll builder.circuit := by
  rw [circuit_of_latest? held, Operation.instructionsAll_append]
  exact List.mem_append_right _ (.head _)

/-- With a latest instruction to be joined to, how the two are related is all that counts. -/
theorem joins_iff {builder : Builder} {earlier : Circuit} {latest instruction : Instruction}
    (held : builder.latest? = some (earlier, latest)) (joined : fuses latest instruction = true)
    {relation : Instruction → Instruction → Prop} :
    builder.Joins relation instruction ↔ relation latest instruction := by
  constructor
  · rintro ⟨_, _, same, -, related⟩
    cases held.symm.trans same
    exact related
  · intro related
    exact ⟨earlier, latest, held, joined, related⟩

/-- The portions of a joined instruction are those of both, with the arguments of the first,
    unless products run into each other. -/
theorem portions_withTargets_iff {latest instruction : Instruction} (earlier : Circuit)
    (joined : fuses latest instruction = true) (valid : latest.validate = .ok ()) :
    List.Forall₂ Instruction.Alike
        (Circuit.portions (earlier ++ [.single (latest.withTargets instruction.targets)]))
        (Circuit.portions (earlier ++ [.single latest]) ++ instruction.portions) ↔
      ¬ latest.RunsInto instruction := by
  rw [← Instruction.targetPortions_withTargets_iff joined valid, Circuit.portions_concat,
    Circuit.portions_concat, List.append_assoc]
  constructor
  · intro alike
    have same := Instruction.map_targets_of_alike alike
    simp only [List.map_append, Instruction.map_targets_portions] at same
    exact List.append_cancel_left same
  · intro portions
    simp only [fuses, Bool.and_eq_true, beq_iff_eq] at joined
    obtain ⟨⟨-, operator⟩, arguments⟩ := joined
    apply List.rel_append (List.forall₂_refl _)
    rw [Instruction.portions, portions, List.map_append]
    apply List.rel_append (List.forall₂_refl _)
    rw [Instruction.portions, List.forall₂_map_left_iff, List.forall₂_map_right_iff,
      List.forall₂_same]
    intro targets _
    exact ⟨operator, rfl, .inr arguments⟩

/-- Joining a valid instruction to a valid circuit gives the portions of both in order unless
    two products run into each other, and adds the records unless the surplus of one product
    list is used up by another. With well-formed products neither happens. -/
theorem fuse_portions {builder : Builder} {instruction : Instruction}
    (valid : builder.circuit.Valid) (passes : instruction.validate = .ok ()) :
    ∃ next, builder.fuse instruction = .ok next ∧
      (List.Forall₂ Instruction.Alike next.circuit.portions
          (builder.circuit.portions ++ instruction.portions) ↔
        ¬ builder.Joins Instruction.RunsInto instruction) ∧
      (builder.circuit.recordCount + instruction.recordCount < Tally.limit →
        (next.circuit.recordCount = builder.circuit.recordCount + instruction.recordCount ↔
          ¬ builder.Joins Instruction.Offsets instruction)) ∧
      (builder.circuit.FormsProducts ∧ instruction.FormsProducts →
        ¬ builder.Joins Instruction.RunsInto instruction ∧
          ¬ builder.Joins Instruction.Offsets instruction) := by
  obtain ⟨earlier, latest, next, held, joined, written, result⟩ | ⟨apart, written⟩ :=
    builder.fuse_cases passes
  · have before := circuit_of_latest? held
    have member := mem_instructionsAll_of_latest? held
    obtain ⟨fewer, counts⟩ := Instruction.recordCount_withTargets joined
    refine ⟨next, written, ?_, ?_, ?_⟩
    · rw [result, before, joins_iff held joined]
      exact portions_withTargets_iff earlier joined (valid latest member)
    · intro below
      rw [before, Circuit.recordCount_concat, Tally.add] at below
      rw [result, before, joins_iff held joined, ← counts, Circuit.recordCount_concat,
        Circuit.recordCount_concat, Tally.add, Tally.add]
      omega
    · rintro ⟨formed, nextFormed⟩
      rw [joins_iff held joined, joins_iff held joined]
      exact Instruction.not_runsInto_of_formsProducts joined (formed latest member) nextFormed
  · have result : (builder.push (.single instruction)).circuit =
        builder.circuit ++ [.single instruction] := List.reverse_cons
    refine ⟨_, written, ?_, ?_, fun _ => ⟨apart _, apart _⟩⟩
    · rw [result, Circuit.portions_concat]
      exact iff_of_true (List.forall₂_refl _) (apart _)
    · intro below
      rw [result, Circuit.recordCount_concat, Tally.add]
      apply iff_of_true _ (apart _)
      omega

/-- A builder that holds one product measurement. -/
def measuring (targets : List Target) : Builder :=
  empty.push (.single (.on .measureProduct targets))

/-- A product of two operators, with another product joined to it. -/
theorem fuse_portions_products :
    ∃ next, (measuring [.pauli .X 0 false, .combiner, .pauli .Z 1 true]).fuse
        (.on .measureProduct [.pauli .Y 2 false]) = .ok next ∧
      List.Forall₂ Instruction.Alike next.circuit.portions
        [.on .measureProduct [.pauli .X 0 false, .combiner, .pauli .Z 1 true],
          .on .measureProduct [.pauli .Y 2 false]] ∧
      next.circuit.recordCount = 2 := by
  have valid : (measuring [.pauli .X 0 false, .combiner, .pauli .Z 1 true]).circuit.Valid := by
    decide +kernel
  have formed :
      (measuring [.pauli .X 0 false, .combiner, .pauli .Z 1 true]).circuit.FormsProducts := by
    decide +kernel
  have passes : (Instruction.on .measureProduct [.pauli .Y 2 false]).validate = .ok () := by
    decide +kernel
  have nextFormed : (Instruction.on .measureProduct [.pauli .Y 2 false]).FormsProducts := by
    decide +kernel
  obtain ⟨next, written, portions, counts, apart⟩ := fuse_portions valid passes
  obtain ⟨separate, added⟩ := apart ⟨formed, nextFormed⟩
  exact ⟨next, written, portions.mpr separate, (counts (by decide +kernel)).mpr added⟩

/-- Not every valid instruction keeps its meaning when it is joined: an operator and the
    combiner behind it become one product, and the record of the operator is lost. -/
theorem fuse_operator_combiner :
    (measuring [.pauli .X 0 false]).circuit.Valid ∧
      (Instruction.on .measureProduct [.combiner]).validate = .ok () ∧
      ∃ next, (measuring [.pauli .X 0 false]).fuse (.on .measureProduct [.combiner]) = .ok next ∧
        ¬ List.Forall₂ Instruction.Alike next.circuit.portions
          ((measuring [.pauli .X 0 false]).circuit.portions ++
            (Instruction.on .measureProduct [.combiner]).portions) ∧
        next.circuit.recordCount = 0 ∧
        (measuring [.pauli .X 0 false]).circuit.recordCount = 1 ∧
        (Instruction.on .measureProduct [.combiner]).recordCount = 0 := by
  refine ⟨by decide +kernel, by decide +kernel, _, rfl, ?_, by decide +kernel, by decide +kernel,
    by decide +kernel⟩
  intro alike
  have lengths : 1 = 2 := alike.length_eq
  contradiction

end Builder

end StabilizerLayers
