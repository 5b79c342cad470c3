import StabilizerLayers.AxisFlip
import StabilizerLayers.Proofs.Circuit.Building

/-!
# Flipping axes twice

Exchanging X and Z is undone by exchanging them again. What an instruction turns
into has a counterpart of its own, and this is the instruction: a gate comes back
because its table is symmetric, and a controlled Pauli comes back because each pair
says alone, from its classical bits, which of the two axes it flips.

A flipped instruction is checked when it is written, the original was not. Both
checks agree, since a flip changes neither the shape of a gate nor the kind of a
target. So a circuit that can be flipped at all can be flipped back.
-/

namespace StabilizerLayers

/-! ### Targets -/

namespace Target

/-- Flipping a target twice gives the target back. -/
@[simp]
theorem flipped_flipped (target : Target) : target.flipped.flipped = target := by
  cases target <;> simp [flipped]

/-- A flipped qubit is a qubit. -/
@[simp]
theorem isQubit_flipped (target : Target) : target.flipped.isQubit = target.isQubit := by
  cases target <;> rfl

/-- A flipped bit is a bit. -/
@[simp]
theorem isClassical_flipped (target : Target) :
    target.flipped.isClassical = target.isClassical := by
  cases target <;> rfl

/-- A flipped target has the same qubit. -/
@[simp]
theorem qubit?_flipped (target : Target) : target.flipped.qubit? = target.qubit? := by
  cases target <;> rfl

end Target

/-! ### Gates -/

namespace Gate

variable {gate other : Gate}

/-- The table of counterparts is symmetric. -/
theorem flipped?_symm (flips : gate.flipped? = some other) : other.flipped? = some gate := by
  cases gate <;> simp only [flipped?, Option.some.injEq, reduceCtorEq] at flips <;> subst flips <;>
    simp [flipped?]

/-- A counterpart groups its targets in the same way. -/
theorem shape_flipped? (flips : gate.flipped? = some other) : other.shape = gate.shape := by
  cases gate <;> simp only [flipped?, Option.some.injEq, reduceCtorEq] at flips <;> subst flips <;>
    rfl

/-- Only a controlled Pauli has one as its counterpart. -/
theorem isSome_controlledBases?_flipped? (flips : gate.flipped? = some other) :
    other.controlledBases?.isSome = gate.controlledBases?.isSome := by
  cases gate <;> simp only [flipped?, Option.some.injEq, reduceCtorEq] at flips <;> subst flips <;>
    rfl

/-- A gate with rules of its own is its own counterpart, and its rules do not tell X
    from Z. -/
theorem acceptsFree_flipped? (flips : gate.flipped? = some other) (free : gate.shape = .free)
    (target : Target) :
    Instruction.acceptsFree other target.flipped = Instruction.acceptsFree gate target := by
  cases gate <;> simp only [flipped?, Option.some.injEq, reduceCtorEq] at flips <;> subst flips <;>
    cases free <;> cases target <;> rfl

/-- A pair flips the same axes again, and so leads back. -/
theorem flippedPair_symm {first second one two : Basis} {targets : Target × Target}
    (flips : flippedPair first second targets = controlled one two) :
    flippedPair one two targets = controlled first second := by
  simp only [flippedPair] at flips ⊢
  split at flips <;> cases flips <;> simp

/-- A pair turns into a controlled Pauli. -/
theorem exists_flippedPair (first second : Basis) (targets : Target × Target) :
    ∃ one two, flippedPair first second targets = controlled one two := by
  rw [flippedPair]
  split <;> exact ⟨_, _, rfl⟩

/-- All pairs of a controlled Pauli agree exactly if each of them turns into the
    result, which without pairs has both axes flipped. -/
theorem flippedControlled_eq_ok_iff {first second : Basis} {pairs : List (Target × Target)} :
    flippedControlled first second pairs = .ok gate ↔
      (pairs = [] → gate = controlled first.flipped second.flipped) ∧
        ∀ targets ∈ pairs, flippedPair first second targets = gate := by
  cases pairs with
  | nil => simp [flippedControlled, eq_comm]
  | cons head rest =>
    simp only [flippedControlled, List.map_cons, List.all_map]
    split
    · rename_i agree
      simp only [List.all_eq_true, Function.comp_apply, beq_iff_eq] at agree
      constructor
      · intro same
        obtain rfl := Except.ok.inj same
        refine ⟨nofun, fun targets member => ?_⟩
        rcases List.mem_cons.mp member with rfl | later
        · rfl
        · exact agree targets later
      · rintro ⟨-, each⟩
        rw [each head (.head _)]
    · rename_i differ
      simp only [reduceCtorEq, false_iff]
      rintro ⟨-, each⟩
      apply differ
      simp only [List.all_eq_true, Function.comp_apply, beq_iff_eq]
      intro targets member
      rw [each targets (.tail _ member), each head (.head _)]

/-- Pairs of a controlled Pauli turn into a controlled Pauli, and with it they turn
    back. -/
theorem flippedControlled_symm {first second : Basis} {pairs : List (Target × Target)}
    (flips : flippedControlled first second pairs = .ok gate) :
    ∃ one two, gate = controlled one two ∧
      flippedControlled one two pairs = .ok (controlled first second) := by
  obtain ⟨none, each⟩ := flippedControlled_eq_ok_iff.mp flips
  cases pairs with
  | nil =>
    obtain rfl := none rfl
    exact ⟨_, _, rfl, flippedControlled_eq_ok_iff.mpr ⟨by simp, nofun⟩⟩
  | cons head rest =>
    obtain ⟨one, two, becomes⟩ := exists_flippedPair first second head
    obtain rfl : gate = controlled one two := (each head (.head _)).symm.trans becomes
    refine ⟨one, two, rfl, flippedControlled_eq_ok_iff.mpr ⟨nofun, fun targets member => ?_⟩⟩
    exact flippedPair_symm (each targets member)

end Gate

/-! ### Instructions -/

namespace Instruction

variable {instruction other : Instruction}

/-- What an instruction turns into: a controlled Pauli keeps its targets, and any
    other gate has them flipped. -/
theorem flipped_cases (flips : instruction.flipped = .ok other) :
    (∃ first second gate, instruction.operator = .known (.controlled first second) ∧
        Gate.flippedControlled first second instruction.targetPairs = .ok gate ∧
        other = { instruction with operator := .known gate }) ∨
      ∃ gate flippedGate, instruction.operator = .known gate ∧ gate.controlledBases? = none ∧
        gate.flipped? = some flippedGate ∧
        other = { instruction with
          operator := .known flippedGate, targets := instruction.targets.map Target.flipped } := by
  obtain ⟨operator, targets, arguments⟩ := instruction
  cases operator with
  | custom name => cases flips
  | known gate =>
    simp only [flipped, gate?, Operator.gate?] at flips
    split at flips
    · cases flips
    · rename_i first second applied
      obtain rfl := Option.some.inj applied
      split at flips
      · rename_i result agree
        exact .inl ⟨first, second, result, rfl, agree, (Except.ok.inj flips).symm⟩
      · cases flips
    · rename_i applied notControlled same
      obtain rfl := Option.some.inj same
      split at flips
      · rename_i result found
        refine .inr ⟨gate, result, rfl, ?_, found, (Except.ok.inj flips).symm⟩
        cases gate <;> first | rfl | exact absurd rfl (notControlled _ _)
      · cases flips

/-- A gate that is no controlled Pauli turns into its counterpart. -/
theorem flipped_of_flipped? {gate flippedGate : Gate} (single : gate.controlledBases? = none)
    (found : gate.flipped? = some flippedGate) (targets : List Target) (arguments : List Float) :
    flipped ⟨.known gate, targets, arguments⟩ =
      .ok ⟨.known flippedGate, targets.map Target.flipped, arguments⟩ := by
  cases gate with
  | controlled first second => cases single
  | _ => simp only [flipped, gate?, Operator.gate?, found]

/-- An instruction turns into one that turns into it. -/
theorem flipped_symm (flips : instruction.flipped = .ok other) :
    other.flipped = .ok instruction := by
  obtain ⟨operator, targets, arguments⟩ := instruction
  rcases flipped_cases flips with
    ⟨first, second, gate, rfl, agree, rfl⟩ | ⟨gate, flippedGate, rfl, single, found, rfl⟩
  · -- The targets stay, and with them what each pair says about the axes.
    obtain ⟨one, two, rfl, back⟩ := Gate.flippedControlled_symm agree
    simp only [flipped, gate?, Operator.gate?]
    rw [show (targetPairs ⟨.known (.controlled one two), targets, arguments⟩) =
      targetPairs ⟨.known (.controlled first second), targets, arguments⟩ from rfl, back]
  · have alone : flippedGate.controlledBases? = none := by
      rw [← Option.not_isSome_iff_eq_none, Gate.isSome_controlledBases?_flipped? found, single]
      exact Bool.false_ne_true
    have undone : (targets.map Target.flipped).map Target.flipped = targets := by
      rw [List.map_map]
      exact List.map_id'' Target.flipped_flipped targets
    exact (flipped_of_flipped? alone (Gate.flipped?_symm found) _ arguments).trans (by rw [undone])

/-- When a pair passes the check. -/
theorem validatePair_eq_ok_iff {gate : Gate} {first second : Target} :
    validatePair gate first second = .ok () ↔
      acceptsPaired gate first = true ∧ acceptsPaired gate second = true ∧
        (first.isClassical && second.isClassical) = false ∧
        ∀ id, first.qubit? = some id → second.qubit? ≠ some id := by
  cases accepted : acceptsPaired gate first with
  | false => simp [validatePair, accepted]
  | true =>
    cases acceptedToo : acceptsPaired gate second with
    | false => simp [validatePair, accepted, acceptedToo]
    | true =>
      cases bits : first.isClassical && second.isClassical with
      | true => simp [validatePair, accepted, acceptedToo, bits]
      | false =>
        simp only [validatePair, accepted, acceptedToo, bits, Bool.not_true, Bool.false_eq_true,
          if_false, true_and]
        split
        · rename_i id other named namedToo
          simp [named, namedToo, eq_comm]
        · rename_i different
          simp only [true_iff]
          exact fun id named namedToo => different id id named namedToo

/-- Pairs pass the check if each of them does. -/
theorem validatePairs_eq_ok_iff {gate : Gate} {pairs : List (Target × Target)} :
    validatePairs gate pairs = .ok () ↔
      ∀ pair ∈ pairs, validatePair gate pair.1 pair.2 = .ok () := by
  constructor
  · exact fun valid pair member => validatePair_of_validatePairs valid member
  · intro each
    induction pairs with
    | nil => rfl
    | cons pair rest inductionHypothesis =>
      rw [validatePairs, each pair (.head _)]
      exact inductionHypothesis fun later member => each later (.tail _ member)

/-- Flipped targets pass the check of the counterpart exactly if the targets pass
    that of the gate. -/
theorem validateTargets_flipped {gate flippedGate : Gate} (found : gate.flipped? = some flippedGate)
    (targets : List Target) :
    validateTargets flippedGate (targets.map Target.flipped) = .ok () ↔
      validateTargets gate targets = .ok () := by
  have sameShape := Gate.shape_flipped? found
  cases shape : gate.shape with
  | none => cases targets <;> simp [validateTargets, sameShape, shape]
  | single => simp [validateTargets, sameShape, shape, requireAll_eq_ok]
  | free =>
    have accepts := Gate.acceptsFree_flipped? found shape
    simp [validateTargets, sameShape, shape, requireAll_eq_ok, accepts]
  | pair =>
    have bits := Gate.isSome_controlledBases?_flipped? found
    simp only [validateTargets, sameShape, shape, List.length_map]
    split
    · simp
    · rw [validatePairs_eq_ok_iff, validatePairs_eq_ok_iff, consecutivePairs_map,
        List.forall_mem_map]
      simp only [validatePair_eq_ok_iff, acceptsPaired, bits, Target.isQubit_flipped,
        Target.isClassical_flipped, Target.qubit?_flipped]

/-- The check does not look at the axes of a controlled Pauli. -/
theorem validateTargets_controlled (first second one two : Basis) (targets : List Target) :
    validateTargets (.controlled one two) targets = .ok () ↔
      validateTargets (.controlled first second) targets = .ok () := by
  simp only [validateTargets, Gate.shape]
  split
  · simp
  · simp only [validatePairs_eq_ok_iff, validatePair_eq_ok_iff, acceptsPaired,
      Gate.controlledBases?, Option.isSome_some]

/-- A flipped instruction is valid exactly if the instruction is. -/
theorem validate_flipped (flips : instruction.flipped = .ok other) :
    other.validate = .ok () ↔ instruction.validate = .ok () := by
  obtain ⟨operator, targets, arguments⟩ := instruction
  rcases flipped_cases flips with
    ⟨first, second, gate, rfl, agree, rfl⟩ | ⟨gate, flippedGate, rfl, -, found, rfl⟩
  · obtain ⟨one, two, rfl, -⟩ := Gate.flippedControlled_symm agree
    exact validateTargets_controlled first second one two targets
  · exact validateTargets_flipped found targets

end Instruction

/-! ### Circuits -/

namespace Operation

mutual

/-- Whether an operation turns into another: instructions into valid ones, and
    bodies of blocks operation by operation. -/
def FlipsTo : Operation → Operation → Prop
  | .single instruction, .single other => instruction.flipped = .ok other ∧ other.validate = .ok ()
  | .block repetitions body, .block others otherBody =>
    repetitions = others ∧ AllFlipTo body otherBody
  | _, _ => False

/-- Whether operations turn into others, one by one. -/
def AllFlipTo : List Operation → List Operation → Prop
  | [], [] => True
  | first :: rest, second :: others => FlipsTo first second ∧ AllFlipTo rest others
  | _, _ => False

end

mutual

/-- Flips of an operation can be undone. -/
theorem FlipsTo.symm {operation other : Operation} (flips : operation.FlipsTo other) :
    other.FlipsTo operation := by
  cases operation with
  | single instruction =>
    cases other with
    | single flipped =>
      obtain ⟨becomes, valid⟩ := flips
      exact ⟨Instruction.flipped_symm becomes, (Instruction.validate_flipped becomes).mp valid⟩
    | block _ _ => exact flips.elim
  | block repetitions body =>
    cases other with
    | single _ => exact flips.elim
    | block others otherBody =>
      obtain ⟨same, inside⟩ := flips
      exact ⟨same.symm, inside.symm⟩

/-- Flips of operations can be undone. -/
theorem AllFlipTo.symm {operations others : List Operation} (flips : AllFlipTo operations others) :
    AllFlipTo others operations := by
  cases operations with
  | nil =>
    cases others with
    | nil => trivial
    | cons _ _ => exact flips.elim
  | cons first rest =>
    cases others with
    | nil => exact flips.elim
    | cons second later => exact ⟨flips.1.symm, flips.2.symm⟩

end

mutual

/-- Writing an operation flipped adds what it turns into, and fails if there is no
    such operation. -/
theorem writeFlipped_eq_ok_iff {builder written : Builder} {operation : Operation} :
    writeFlipped builder operation = .ok written ↔
      ∃ other, operation.FlipsTo other ∧ written = builder.push other := by
  cases operation with
  | single instruction =>
    simp only [writeFlipped, Builder.append]
    constructor
    · intro done
      split at done
      · cases done
      · rename_i flipped becomes
        split at done
        · cases done
        · rename_i result appended
          split at appended
          · cases appended
          · rename_i valid
            obtain rfl := Except.ok.inj done
            exact ⟨.single flipped, ⟨becomes, valid⟩, (Except.ok.inj appended).symm⟩
    · rintro ⟨_ | _, flips, rfl⟩
      · obtain ⟨becomes, valid⟩ := flips
        simp only [becomes, valid]
      · exact flips.elim
  -- The body is written into a builder of its own.
  | block repetitions body =>
    simp only [writeFlipped]
    constructor
    · intro done
      split at done
      · cases done
      · rename_i inner finished
        obtain ⟨others, flips, rfl⟩ := writeFlippedAll_eq_ok_iff.mp finished
        refine ⟨.block repetitions others, ⟨rfl, flips⟩, ?_⟩
        simpa [Builder.appendBlock, Builder.circuit, Builder.empty] using (Except.ok.inj done).symm
    · rintro ⟨_ | ⟨others, otherBody⟩, flips, rfl⟩
      · exact flips.elim
      · obtain ⟨rfl, inside⟩ := flips
        rw [writeFlippedAll_eq_ok_iff.mpr ⟨otherBody, inside, rfl⟩]
        simp [Builder.appendBlock, Builder.circuit, Builder.empty]

/-- Writing operations flipped adds what they turn into. -/
theorem writeFlippedAll_eq_ok_iff {builder written : Builder} {operations : List Operation} :
    writeFlippedAll builder operations = .ok written ↔
      ∃ others, AllFlipTo operations others ∧
        written = ⟨others.reverse ++ builder.latestFirst⟩ := by
  cases operations with
  | nil =>
    simp only [writeFlippedAll]
    constructor
    · intro done
      exact ⟨[], trivial, (Except.ok.inj done).symm⟩
    · rintro ⟨_ | _, flips, rfl⟩
      · rfl
      · exact flips.elim
  | cons first rest =>
    simp only [writeFlippedAll]
    constructor
    · intro done
      split at done
      · cases done
      · rename_i middle here
        obtain ⟨second, flips, rfl⟩ := writeFlipped_eq_ok_iff.mp here
        obtain ⟨others, allFlip, rfl⟩ := writeFlippedAll_eq_ok_iff.mp done
        exact ⟨second :: others, ⟨flips, allFlip⟩, by simp [Builder.push]⟩
    · rintro ⟨_ | ⟨second, others⟩, flips, rfl⟩
      · exact flips.elim
      · rw [writeFlipped_eq_ok_iff.mpr ⟨second, flips.1, rfl⟩]
        exact writeFlippedAll_eq_ok_iff.mpr ⟨others, flips.2, by simp [Builder.push]⟩

end

end Operation

namespace Circuit

variable {circuit other : Circuit}

/-- What a circuit turns into. -/
theorem flipped_eq_ok_iff :
    circuit.flipped = .ok other ↔ Operation.AllFlipTo circuit other := by
  rw [flipped]
  constructor
  · intro done
    split at done
    · cases done
    · rename_i builder written
      obtain ⟨others, flips, rfl⟩ := Operation.writeFlippedAll_eq_ok_iff.mp written
      obtain rfl : others = other := by
        simpa [Builder.circuit, Builder.empty] using Except.ok.inj done
      exact flips
  · intro flips
    rw [Operation.writeFlippedAll_eq_ok_iff.mpr ⟨other, flips, rfl⟩]
    simp [Builder.circuit, Builder.empty]

/-- A circuit turns into one that turns into it. -/
theorem flipped_of_flipped (flips : circuit.flipped = .ok other) :
    other.flipped = .ok circuit :=
  flipped_eq_ok_iff.mpr (flipped_eq_ok_iff.mp flips).symm

/-- Classical and quantum pairs under one gate, a block, and an observable with
    operators and an argument. -/
def mixedPairs : Circuit :=
  [.single (.onQubits (.reset .X) [0, 1]),
    .block 3
      [.single (.on (.controlled .Y .X) [.plain 0, .plain 1, .record 1, .plain 2]),
        .single (.on (.controlled .Z .X) [.sweep 0, .plain 1]),
        .single .tick],
    .single ⟨.known .observableInclude, [.record 1, .pauli .Z 2 true], [1]⟩]

/-- Pairs with a bit turn beside pairs of qubits, in a block too, and all of them turn back. -/
theorem flipped_of_flipped_mixedPairs :
    ∃ other, mixedPairs.flipped = .ok other ∧ other.flipped = .ok mixedPairs := by
  have flips : mixedPairs.flipped = .ok
      [.single (.onQubits (.reset .Z) [0, 1]),
        .block 3
          [.single (.on (.controlled .Y .Z) [.plain 0, .plain 1, .record 1, .plain 2]),
            .single (.on (.controlled .Z .Z) [.sweep 0, .plain 1]),
            .single .tick],
        .single ⟨.known .observableInclude, [.record 1, .pauli .X 2 true], [1]⟩] := rfl
  exact ⟨_, flips, flipped_of_flipped flips⟩

end Circuit

end StabilizerLayers
