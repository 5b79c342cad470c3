import StabilizerLayers.Proofs.Circuit.Arguments
import StabilizerLayers.Proofs.Text.RoundTrip

/-!
# Circuits told by their lines

A circuit without arguments whose names can be read is known from its lines, even without
their indentation: lines are scanned in one way only, the tokens of a target tell where it
ends, and a block ends at the brace that belongs to it. Records need not be counted back
for this, so the circuits need not be ones that can be read.
-/

namespace StabilizerLayers

/-! ### Targets -/

namespace Target

/-- The target at the front of some tokens, and what follows it. -/
def front? : List Token → Option (Target × List Token)
  | .star :: rest => some (.combiner, rest)
  | .integer index :: rest => some (.qubit index.toUInt32 false, rest)
  | .exclamation :: .integer index :: rest => some (.qubit index.toUInt32 true, rest)
  | .exclamation :: .word word :: rest => (readPauli word true).toOption.map (·, rest)
  | .word word :: rest =>
    if word = "rec" then
      match rest with
      | _ :: _ :: .integer index :: _ :: others => some (.record index.toUInt32, others)
      | _ => none
    else if word = "sweep" then
      match rest with
      | _ :: .integer index :: _ :: others => some (.sweep index.toUInt32, others)
      | _ => none
    else (readPauli word false).toOption.map (·, rest)
  | _ => none

/-- The tokens of a target tell it apart from what follows. -/
theorem front?_tokens_append (target : Target) (rest : List Token) :
    front? (target.tokens ++ rest) = some (target, rest) := by
  cases target with
  | qubit id inverted =>
    have same : id.toUInt64.toUInt32 = id := UInt32.toUInt32_toUInt64 id
    cases inverted with
    | false =>
      change some (Target.qubit id.toUInt64.toUInt32 false, rest) = _
      rw [same]
    | true =>
      change some (Target.qubit id.toUInt64.toUInt32 true, rest) = _
      rw [same]
  | record lookback =>
    change some (Target.record lookback.toUInt64.toUInt32, rest) = _
    rw [UInt32.toUInt32_toUInt64]
  | sweep index =>
    change some (Target.sweep index.toUInt64.toUInt32, rest) = _
    rw [UInt32.toUInt32_toUInt64]
  | pauli basis id inverted =>
    cases inverted with
    | false =>
      have noRecord : String.ofList (basis.letter :: Nat.toDigits 10 id.toNat) ≠ "rec" :=
        Reader.ofList_letter_ne (by cases basis <;> decide)
      have noSweep : String.ofList (basis.letter :: Nat.toDigits 10 id.toNat) ≠ "sweep" :=
        Reader.ofList_letter_ne (by cases basis <;> decide)
      simp only [tokens, inversionTokens, Bool.false_eq_true, if_false, List.nil_append,
        List.cons_append, front?, noRecord, noSweep, Reader.readPauli_letter]
      rfl
    | true =>
      simp only [tokens, inversionTokens, if_true, List.nil_append,
        List.cons_append, front?, Reader.readPauli_letter]
      rfl
  | combiner => rfl

/-- Every target has a token. -/
theorem tokens_ne_nil (target : Target) : target.tokens ≠ [] := by
  intro none
  have front := front?_tokens_append target []
  rw [none] at front
  contradiction

/-- Targets are told by their tokens. -/
theorem eq_of_flatMap_tokens {first second : List Target}
    (same : first.flatMap tokens = second.flatMap tokens) : first = second := by
  induction first generalizing second with
  | nil =>
    cases second with
    | nil => rfl
    | cons other others =>
      exact absurd (List.append_eq_nil_iff.mp same.symm).1 other.tokens_ne_nil
  | cons target rest inductionHypothesis =>
    cases second with
    | nil => exact absurd (List.append_eq_nil_iff.mp same).1 target.tokens_ne_nil
    | cons other others =>
      have front := front?_tokens_append target (rest.flatMap tokens)
      rw [← List.flatMap_cons, same, List.flatMap_cons, front?_tokens_append] at front
      obtain ⟨rfl, later⟩ := Prod.mk.inj (Option.some.inj front)
      rw [inductionHypothesis later.symm]

end Target

/-! ### Instructions -/

/-- Readable operators are told apart by their names. -/
theorem Operator.eq_of_name {first second : Operator} (firstReadable : first.IsReadable)
    (secondReadable : second.IsReadable) (same : first.name = second.name) : first = second := by
  rw [← ofName_name firstReadable, same, ofName_name secondReadable]

namespace Instruction

/-- Without arguments the targets stand right behind the name. -/
theorem tokens?_of_argumentFree {instruction : Instruction} (free : instruction.arguments = []) :
    instruction.tokens? = some (.word instruction.operator.name ::
      instruction.targets.flatMap Target.tokens) := by
  rw [tokens?, free]
  rfl

/-- Instructions without arguments are told by their tokens. -/
theorem eq_of_tokens? {first second : Instruction} (firstFree : first.arguments = [])
    (secondFree : second.arguments = []) (firstReadable : first.operator.IsReadable)
    (secondReadable : second.operator.IsReadable) (same : first.tokens? = second.tokens?) :
    first = second := by
  rw [tokens?_of_argumentFree firstFree, tokens?_of_argumentFree secondFree] at same
  obtain ⟨name, targets⟩ := List.cons.inj (Option.some.inj same)
  obtain ⟨operator, firstTargets, arguments⟩ := first
  obtain ⟨other, secondTargets, otherArguments⟩ := second
  obtain rfl : operator = other :=
    Operator.eq_of_name firstReadable secondReadable (Token.word.inj name)
  obtain rfl : firstTargets = secondTargets := Target.eq_of_flatMap_tokens targets
  obtain rfl : arguments = [] := firstFree
  obtain rfl : otherArguments = [] := secondFree
  rfl

end Instruction

/-! ### Circuits -/

namespace Operation

/-- Whether lines are at their end or go on with the end of a block. -/
def Closes : List (Option (List Token)) → Prop
  | [] => True
  | line :: _ => line = some [.rightBrace]

/-- Whether no instruction has arguments and all names can be read. -/
def PlainAll (operations : List Operation) : Prop :=
  ∀ instruction ∈ instructionsAll operations,
    instruction.arguments = [] ∧ instruction.operator.IsReadable

/-- Operations behind plain ones are plain. -/
theorem PlainAll.tail {first : Operation} {rest : List Operation}
    (plain : PlainAll (first :: rest)) : PlainAll rest :=
  fun instruction member => plain instruction (List.mem_append_right _ member)

/-- The first of plain operations has no arguments and a name that can be read. -/
theorem PlainAll.instruction {instruction : Instruction} {rest : List Operation}
    (plain : PlainAll (.single instruction :: rest)) :
    instruction.arguments = [] ∧ instruction.operator.IsReadable :=
  plain instruction (.head _)

/-- The body of a plain block is plain. -/
theorem PlainAll.body {repetitions : UInt64} {body rest : List Operation}
    (plain : PlainAll (.block repetitions body :: rest)) : PlainAll body :=
  fun instruction member => plain instruction (List.mem_append_left _ member)

/-- The lines of an operation do not go on with the end of a block. -/
theorem not_closes_tokenLinesAll {first : Operation} {rest : List Operation}
    (plain : PlainAll (first :: rest)) (others : List (Option (List Token))) :
    ¬ Closes (tokenLinesAll (first :: rest) ++ others) := by
  cases first with
  | single instruction =>
    intro closes
    have brace : instruction.tokens? = some [.rightBrace] := closes
    rw [Instruction.tokens?_of_argumentFree plain.instruction.1] at brace
    cases brace
  | block repetitions body => exact nofun

/-- No instruction is written like the start of a block. -/
theorem tokens?_ne_blockOpening {instruction : Instruction} {tokens : List Token}
    (free : instruction.arguments = []) (readable : instruction.operator.IsReadable) :
    instruction.tokens? ≠ some (.word "REPEAT" :: tokens) := by
  intro same
  rw [Instruction.tokens?_of_argumentFree free] at same
  have name := Token.word.inj (List.cons.inj (Option.some.inj same)).1
  have opens : opensBlock instruction.operator.name = true := by
    rw [name]
    decide +kernel
  rw [Operator.opensBlock_name readable] at opens
  cases opens

/-- A block is a line that opens it, its body, a brace and what follows. -/
theorem tokenLinesAll_block_append (repetitions : UInt64) (body later : List Operation)
    (rest : List (Option (List Token))) :
    tokenLinesAll (.block repetitions body :: later) ++ rest =
      some [.word "REPEAT", .integer repetitions, .leftBrace] ::
        (tokenLinesAll body ++ some [.rightBrace] :: (tokenLinesAll later ++ rest)) := by
  simp only [tokenLinesAll, tokenLines, List.cons_append, List.append_assoc, List.nil_append]

/-- Operations are told by their lines up to the end of the block around them. -/
theorem eq_of_tokenLinesAll_append {first second : List Operation}
    {rest others : List (Option (List Token))} (firstPlain : PlainAll first)
    (secondPlain : PlainAll second) (restCloses : Closes rest) (othersClose : Closes others)
    (same : tokenLinesAll first ++ rest = tokenLinesAll second ++ others) :
    first = second ∧ rest = others := by
  match first, second with
  | [], [] => exact ⟨rfl, same⟩
  | [], _ :: _ => exact absurd (same ▸ restCloses) (not_closes_tokenLinesAll secondPlain others)
  | _ :: _, [] => exact absurd (same ▸ othersClose) (not_closes_tokenLinesAll firstPlain rest)
  | .single instruction :: later, .single other :: further =>
    obtain ⟨line, lines⟩ := List.cons.inj same
    obtain ⟨free, readable⟩ := firstPlain.instruction
    obtain ⟨otherFree, otherReadable⟩ := secondPlain.instruction
    obtain rfl := Instruction.eq_of_tokens? free otherFree readable otherReadable line
    obtain ⟨rfl, rfl⟩ :=
      eq_of_tokenLinesAll_append firstPlain.tail secondPlain.tail restCloses othersClose lines
    exact ⟨rfl, rfl⟩
  | .single instruction :: _, .block repetitions body :: _ =>
    obtain ⟨free, readable⟩ := firstPlain.instruction
    exact absurd (List.cons.inj same).1 (tokens?_ne_blockOpening free readable)
  | .block repetitions body :: _, .single other :: _ =>
    obtain ⟨free, readable⟩ := secondPlain.instruction
    exact absurd (List.cons.inj same).1.symm (tokens?_ne_blockOpening free readable)
  | .block repetitions body :: later, .block otherRepetitions otherBody :: further =>
    rw [tokenLinesAll_block_append, tokenLinesAll_block_append] at same
    obtain ⟨opening, lines⟩ := List.cons.inj same
    obtain rfl : repetitions = otherRepetitions := by
      injection opening with opening
      injection opening with _ opening
      injection opening with count
      exact Token.integer.inj count
    -- The brace of the block ends the lines of the body, and the rest goes on after it.
    have closes (lines : List (Option (List Token))) : Closes (some [.rightBrace] :: lines) := rfl
    obtain ⟨rfl, closing⟩ := eq_of_tokenLinesAll_append firstPlain.body secondPlain.body
      (closes _) (closes _) lines
    obtain ⟨rfl, rfl⟩ := eq_of_tokenLinesAll_append firstPlain.tail secondPlain.tail restCloses
      othersClose (List.cons.inj closing).2
    exact ⟨rfl, rfl⟩
termination_by sizeOf first

end Operation

/-- Circuits without arguments whose names can be read are told by their lines. -/
theorem Circuit.eq_of_listing {first second : Circuit} (firstPlain : Operation.PlainAll first)
    (secondPlain : Operation.PlainAll second) (same : first.listing = second.listing) :
    first = second := by
  have scans {circuit : Circuit} (plain : Operation.PlainAll circuit) :
      List.Forall₂ (fun line tokens? => Token.Scans line.toList tokens?) circuit.listing
        (Operation.tokenLinesAll circuit) := by
    rw [listing, List.forall₂_map_left_iff]
    exact Operation.scans_linesAll 0 fun instruction member =>
      Operator.isWord_name (plain instruction member).2
  have tokens : Operation.tokenLinesAll first = Operation.tokenLinesAll second :=
    List.right_unique_forall₂' (fun _ _ _ one other => one.unique other) (scans firstPlain)
      (same ▸ scans secondPlain)
  have lines : Operation.tokenLinesAll first ++ [] = Operation.tokenLinesAll second ++ [] :=
    congrArg (· ++ []) tokens
  have closes : Operation.Closes [] := trivial
  exact (Operation.eq_of_tokenLinesAll_append firstPlain secondPlain closes closes lines).1

end StabilizerLayers
