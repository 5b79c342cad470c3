import StabilizerLayers.Proofs.Circuit.Building
import StabilizerLayers.Proofs.Text.RoundTrip

/-!
# Writing circuits that have been read

Whatever is read from text passes its checks and has names and records that can be read:
every word is scanned as a word, a name is kept unless the vocabulary has it or it opens
a block, and a record that is not counted back is refused. The reader keeps this of the
instruction in progress, of what it has written and of the blocks that are open.

So a circuit that has been read can be written and read again, unless one of its
arguments is too large. Such arguments can be read, with an exponent, but they are
written without one, and then an integer has to fit into 64 bits.
-/

namespace StabilizerLayers

/-! ### Scanned tokens -/

namespace Token

/-- Whether a token can come from a scanner: a name is one word. -/
def IsScanned : Token → Prop
  | word text => isWord text.toList = true
  | _ => True

/-- Marks are tokens that the scanner can make. -/
theorem isScanned_of_mark? {character : Char} {token : Token}
    (mark : mark? character = some token) : token.IsScanned := by
  unfold mark? at mark
  split at mark
  all_goals cases mark
  all_goals trivial

/-- Numbers are read as tokens that the scanner can make. -/
theorem isScanned_of_readNumber {characters : List Char} {token : Token} {more : Nat}
    (reads : readNumber characters = .token token more) : token.IsScanned := by
  simp only [readNumber] at reads
  split at reads
  · split at reads
    · cases reads
      trivial
    · cases reads
      trivial
  · split at reads
    · cases reads
      trivial
    · split at reads
      · cases reads
        trivial
      · contradiction

/-- What is read at a character is a token that the scanner can make. -/
theorem isScanned_of_read {first : Char} {rest : List Char} {token : Token} {more : Nat}
    (reads : read first rest = .token token more) : token.IsScanned := by
  unfold read at reads
  split at reads
  · contradiction
  split at reads
  · contradiction
  split at reads
  · exact isScanned_of_readNumber reads
  split at reads
  · rename_i starts
    cases reads
    rw [IsScanned, String.toList_ofList, isWord, starts, Bool.true_and]
    exact List.all_takeWhile
  split at reads
  · rename_i mark
    cases reads
    exact isScanned_of_mark? mark
  · contradiction

/-- A line has only tokens that the scanner can make. -/
theorem isScanned_of_scan {line skipped : Nat} {characters : List Char} {lexemes : List Lexeme}
    (scanned : scan line skipped characters = .ok lexemes) :
    ∀ lexeme ∈ lexemes, lexeme.token.IsScanned := by
  induction characters generalizing skipped lexemes with
  | nil =>
    rw [scan] at scanned
    cases scanned
    exact List.forall_mem_nil _
  | cons first rest inductionHypothesis =>
    cases skipped with
    | succ skipped =>
      rw [scan] at scanned
      exact inductionHypothesis scanned
    | zero =>
      rw [scan] at scanned
      split at scanned
      · exact inductionHypothesis scanned
      · cases scanned
        exact List.forall_mem_nil _
      · contradiction
      · rename_i reads
        split at scanned
        · contradiction
        · rename_i scannedRest
          cases scanned
          exact List.forall_mem_cons.mpr
            ⟨isScanned_of_read reads, inductionHypothesis scannedRest⟩

/-- All lines have only tokens that the scanner can make. -/
theorem isScanned_of_scanLines {number : Nat} {lines : List (List Char)} {lexemes : List Lexeme}
    (scanned : scanLines number lines = .ok lexemes) :
    ∀ lexeme ∈ lexemes, lexeme.token.IsScanned := by
  induction lines generalizing number lexemes with
  | nil =>
    cases scanned
    exact List.forall_mem_nil _
  | cons line rest inductionHypothesis =>
    cases rest with
    | nil => exact isScanned_of_scan scanned
    | cons next others =>
      rw [scanLines] at scanned
      · split at scanned
        · contradiction
        · rename_i scannedLine
          split at scanned
          · contradiction
          · rename_i scannedRest
            cases scanned
            refine List.forall_mem_append.mpr ⟨isScanned_of_scan scannedLine, ?_⟩
            exact List.forall_mem_cons.mpr ⟨trivial, inductionHypothesis scannedRest⟩
      · exact List.cons_ne_nil _ _

end Token

/-! ### Targets that have been read -/

/-- An index that fits into 32 bits keeps its value. -/
theorem toNat_of_index32? {index : UInt64} {small : UInt32} (fits : index32? index = some small) :
    small.toNat = index.toNat := by
  rw [index32?] at fits
  split at fits
  · rename_i bound
    cases fits
    rw [UInt64.toNat_toUInt32]
    exact Nat.mod_eq_of_lt bound
  · contradiction

/-- A record that is read counts at least one back. -/
theorem countsBack_of_readRecord {negative : Bool} {index : UInt64} {target : Target}
    (reads : readRecord negative index = .ok target) : target.CountsBack := by
  unfold readRecord at reads
  split at reads
  · contradiction
  · rename_i counted
    split at reads
    · rename_i lookback fits
      cases reads
      have nonzero : index ≠ 0 := by
        rintro rfl
        rw [beq_self_eq_true, Bool.or_true] at counted
        exact counted rfl
      have positive : index.toNat ≠ 0 := fun zero => nonzero (UInt64.toNat_inj.mp zero)
      change 1 ≤ lookback.toNat
      rw [toNat_of_index32? fits]
      omega
    · contradiction

/-- A sweep bit is no record. -/
theorem countsBack_of_readSweep {index : UInt64} {target : Target}
    (reads : readSweep index = .ok target) : target.CountsBack := by
  unfold readSweep at reads
  split at reads
  · cases reads
    trivial
  · contradiction

/-- A qubit is no record. -/
theorem countsBack_of_readQubit {index : UInt64} {target : Target} {inverted : Bool}
    (reads : (readQubit index).map (fun id => .qubit id inverted) = .ok target) :
    target.CountsBack := by
  obtain ⟨id, -, rfl⟩ := exists_of_map_eq_ok reads
  trivial

/-- A Pauli operator is no record. -/
theorem countsBack_of_readPauli {word : String} {inverted : Bool} {target : Target}
    (reads : readPauli word inverted = .ok target) : target.CountsBack := by
  unfold readPauli at reads
  split at reads
  · split at reads
    · split at reads
      · contradiction
      · simp only at reads
        split at reads
        · obtain ⟨id, -, rfl⟩ := exists_of_map_eq_ok reads
          trivial
        · contradiction
    · contradiction
  · contradiction

/-! ### What the reader keeps -/

namespace Draft

/-- Whether the name and the targets read so far can be read. -/
structure IsReadable (draft : Draft) : Prop where
  isWord : Token.isWord draft.name.toList = true
  opensNoBlock : opensBlock draft.name = false
  targets : ∀ target ∈ draft.targets, target.CountsBack

/-- The instruction of a readable draft can be read again. -/
theorem IsReadable.instruction {draft : Draft} (readable : draft.IsReadable) :
    draft.instruction.IsReadable := by
  refine ⟨?_, fun target member => readable.targets target (List.mem_reverse.mp member)⟩
  change (Operator.ofName draft.name).IsReadable
  rw [Operator.ofName]
  cases named : Gate.ofName? draft.name with
  | some gate => trivial
  | none => exact ⟨readable.isWord, readable.opensNoBlock, named⟩

/-- A draft stays readable when it takes a target that counts back. -/
theorem IsReadable.addTarget {draft : Draft} (readable : draft.IsReadable) {target : Target}
    (back : target.CountsBack) : (draft.addTarget target).IsReadable :=
  ⟨readable.isWord, readable.opensNoBlock, List.forall_mem_cons.mpr ⟨back, readable.targets⟩⟩

/-- A draft stays readable when it takes an argument. -/
theorem IsReadable.addArgument {draft : Draft} (readable : draft.IsReadable) (value : Float) :
    (draft.addArgument value).IsReadable :=
  ⟨readable.isWord, readable.opensNoBlock, readable.targets⟩

end Draft

/-- The instruction that is being read at a place. -/
def Place.draft? : Place → Option Draft
  | .statement | .blockCount | .blockOpen _ => none
  | .name draft | .firstArgument draft | .argument draft | .negativeArgument draft
  | .separator draft | .target draft | .inverted draft | .recordOpen draft | .recordIndex draft
  | .negativeRecordIndex draft | .recordClose draft _ _ | .sweepOpen draft | .sweepIndex draft
  | .sweepClose draft _ => some draft

/-- Whether all that has been written passes its checks and can be read. -/
def Builder.IsReadable (builder : Builder) : Prop :=
  builder.circuit.Valid ∧ builder.circuit.IsReadable

namespace Builder

/-- Before anything is written, everything written can be read again. -/
theorem isReadable_empty : Builder.empty.IsReadable :=
  ⟨nofun, nofun⟩

/-- A builder stays readable when it writes an operation that can be read again. -/
theorem IsReadable.push {builder : Builder} (readable : builder.IsReadable) {operation : Operation}
    (valid : ∀ instruction ∈ operation.instructions, instruction.validate = .ok ())
    (operationReadable : ∀ instruction ∈ operation.instructions, instruction.IsReadable) :
    (builder.push operation).IsReadable := by
  have circuit : Operation.instructionsAll (builder.push operation).circuit =
      Operation.instructionsAll builder.circuit ++ operation.instructions := by
    rw [circuit_push, Operation.instructionsAll_append, Operation.instructionsAll,
      Operation.instructionsAll, List.append_nil]
  constructor
  · intro instruction member
    rw [circuit, List.mem_append] at member
    exact member.elim (readable.1 instruction) (valid instruction)
  · intro instruction member
    rw [circuit, List.mem_append] at member
    exact member.elim (readable.2 instruction) (operationReadable instruction)

end Builder

namespace Reader

/-- Whether all that a reader holds can be read again. -/
structure IsReadable (reader : Reader) : Prop where
  draft : ∀ draft ∈ reader.place.draft?, draft.IsReadable
  written : reader.written.IsReadable
  enclosing : ∀ block ∈ reader.enclosing, block.before.IsReadable

variable {reader next : Reader} {draft : Draft} {lexeme : Lexeme}

/-- The reader starts with nothing written and nothing open. -/
theorem isReadable_start : start.IsReadable :=
  ⟨nofun, Builder.isReadable_empty, nofun⟩

/-- Moving to a place in no instruction keeps a reader readable. -/
theorem IsReadable.movedOut (readable : reader.IsReadable) {place : Place}
    (noDraft : place.draft? = none) : (reader.moved place).IsReadable := by
  refine ⟨?_, readable.written, readable.enclosing⟩
  intro draft member
  cases noDraft.symm.trans member

/-- Moving to a place in an instruction that can be read keeps a reader readable. -/
theorem IsReadable.movedIn (readable : reader.IsReadable) (draftReadable : draft.IsReadable)
    {place : Place} (inDraft : place.draft? = some draft) : (reader.moved place).IsReadable := by
  refine ⟨?_, readable.written, readable.enclosing⟩
  intro other member
  obtain rfl : draft = other := Option.some.inj (inDraft.symm.trans member)
  exact draftReadable

/-- A reader stays readable when it writes a readable draft. -/
theorem IsReadable.endInstruction (readable : reader.IsReadable) (draftReadable : draft.IsReadable)
    (ended : reader.endInstruction draft = .ok next) : next.IsReadable := by
  rw [Reader.endInstruction, Builder.append] at ended
  cases valid : draft.instruction.validate with
  | error fault =>
    rw [valid] at ended
    contradiction
  | ok _ =>
    rw [valid] at ended
    cases ended
    refine ⟨?_, ?_, readable.enclosing⟩
    · intro other member
      cases member
    · exact readable.written.push (List.forall_mem_singleton.mpr valid)
        (List.forall_mem_singleton.mpr draftReadable.instruction)

/-- A reader stays readable when it takes a target that counts back. -/
theorem IsReadable.addTarget (readable : reader.IsReadable) (draftReadable : draft.IsReadable)
    {line : Nat} {target? : Except TargetError Target}
    (back : ∀ target, target? = .ok target → target.CountsBack)
    (added : reader.addTarget draft line target? = .ok next) : next.IsReadable := by
  cases target? with
  | error fault => contradiction
  | ok target =>
    cases added
    exact readable.movedIn (draftReadable.addTarget (back target rfl)) rfl

/-- A reader stays readable at the start of a statement. -/
theorem IsReadable.stepStatement (readable : reader.IsReadable)
    (scanned : lexeme.token.IsScanned) (stepped : reader.stepStatement lexeme = .ok next) :
    next.IsReadable := by
  obtain ⟨token, line⟩ := lexeme
  cases token with
  | newline =>
    cases stepped
    exact readable.movedOut rfl
  | rightBrace =>
    obtain ⟨place, enclosing, written⟩ := reader
    cases enclosing with
    | nil => contradiction
    | cons block outer =>
      cases stepped
      obtain ⟨before, others⟩ := List.forall_mem_cons.mp readable.enclosing
      have inner := readable.written
      refine ⟨?_, before.push inner.1 inner.2, others⟩
      intro other member
      cases member
  | word word =>
    simp only [Reader.stepStatement] at stepped
    split at stepped
    · cases stepped
      exact readable.movedOut rfl
    · rename_i opensNone
      cases stepped
      have fresh : Draft.IsReadable ⟨line, word, [], []⟩ :=
        ⟨scanned, Bool.eq_false_iff.mpr opensNone, List.forall_mem_nil _⟩
      exact readable.movedIn fresh rfl
  | _ => contradiction

/-- A reader stays readable when it takes a number. -/
theorem IsReadable.stepNumber (readable : reader.IsReadable) (draftReadable : draft.IsReadable)
    {negative : Bool} (stepped : reader.stepNumber draft negative lexeme = .ok next) :
    next.IsReadable := by
  obtain ⟨token, line⟩ := lexeme
  cases token with
  | integer value =>
    cases stepped
    exact readable.movedIn (draftReadable.addArgument _) rfl
  | decimal value =>
    cases stepped
    exact readable.movedIn (draftReadable.addArgument _) rfl
  | _ => contradiction

/-- A reader stays readable where an argument may stand. -/
theorem IsReadable.stepArgument (readable : reader.IsReadable) (draftReadable : draft.IsReadable)
    (stepped : reader.stepArgument draft lexeme = .ok next) : next.IsReadable := by
  rw [Reader.stepArgument] at stepped
  split at stepped
  · cases stepped
    exact readable.movedIn draftReadable rfl
  · exact readable.stepNumber draftReadable stepped

/-- A reader stays readable where a target may stand. -/
theorem IsReadable.stepTarget (readable : reader.IsReadable) (draftReadable : draft.IsReadable)
    (scanned : lexeme.token.IsScanned) (stepped : reader.stepTarget draft lexeme = .ok next) :
    next.IsReadable := by
  rw [Reader.stepTarget] at stepped
  split at stepped
  · exact readable.endInstruction draftReadable stepped
  · cases ended : reader.endInstruction draft with
    | error fault =>
      rw [ended] at stepped
      contradiction
    | ok other =>
      rw [ended] at stepped
      exact (readable.endInstruction draftReadable ended).stepStatement scanned stepped
  · exact readable.addTarget draftReadable (by rintro _ ⟨⟩; trivial) stepped
  · exact readable.addTarget draftReadable (fun _ => countsBack_of_readQubit) stepped
  · cases stepped
    exact readable.movedIn draftReadable rfl
  · cases stepped
    exact readable.movedIn draftReadable rfl
  · cases stepped
    exact readable.movedIn draftReadable rfl
  · exact readable.addTarget draftReadable (fun _ => countsBack_of_readPauli) stepped
  · contradiction

/-- One token keeps what the reader holds readable. -/
theorem IsReadable.step (readable : reader.IsReadable) (scanned : lexeme.token.IsScanned)
    (stepped : reader.step lexeme = .ok next) : next.IsReadable := by
  obtain ⟨place, enclosing, written⟩ := reader
  have drafts : ∀ draft ∈ place.draft?, draft.IsReadable := readable.draft
  obtain ⟨token, line⟩ := lexeme
  -- Only the ends of targets and instructions add something; all other places keep the draft.
  cases place with
  | statement => exact readable.stepStatement scanned stepped
  | blockCount =>
    cases token with
    | integer repetitions =>
      cases stepped
      exact readable.movedOut rfl
    | _ => contradiction
  | blockOpen repetitions =>
    cases token with
    | leftBrace =>
      cases stepped
      exact ⟨nofun, Builder.isReadable_empty,
        List.forall_mem_cons.mpr ⟨readable.written, readable.enclosing⟩⟩
    | _ => contradiction
  | name draft =>
    by_cases opens : token = .leftParenthesis
    · subst opens
      cases stepped
      exact readable.movedIn (drafts draft rfl) rfl
    · rw [step_target rfl opens] at stepped
      exact readable.stepTarget (drafts draft rfl) scanned stepped
  | firstArgument draft =>
    by_cases closes : token = .rightParenthesis
    · subst closes
      cases stepped
      exact readable.movedIn (drafts draft rfl) rfl
    · rw [step_argument rfl closes] at stepped
      exact readable.stepArgument (drafts draft rfl) stepped
  | argument draft => exact readable.stepArgument (drafts draft rfl) stepped
  | negativeArgument draft => exact readable.stepNumber (drafts draft rfl) stepped
  | separator draft =>
    cases token with
    | rightParenthesis | comma =>
      cases stepped
      exact readable.movedIn (drafts draft rfl) rfl
    | _ => contradiction
  | target draft => exact readable.stepTarget (drafts draft rfl) scanned stepped
  | inverted draft =>
    cases token with
    | integer index =>
      exact readable.addTarget (drafts draft rfl) (fun _ => countsBack_of_readQubit) stepped
    | word word =>
      exact readable.addTarget (drafts draft rfl) (fun _ => countsBack_of_readPauli) stepped
    | _ => contradiction
  | recordIndex draft =>
    cases token with
    | minus | integer index =>
      cases stepped
      exact readable.movedIn (drafts draft rfl) rfl
    | _ => contradiction
  | recordOpen draft | sweepOpen draft =>
    cases token with
    | leftBracket =>
      cases stepped
      exact readable.movedIn (drafts draft rfl) rfl
    | _ => contradiction
  | negativeRecordIndex draft | sweepIndex draft =>
    cases token with
    | integer index =>
      cases stepped
      exact readable.movedIn (drafts draft rfl) rfl
    | _ => contradiction
  | recordClose draft negative index =>
    cases token with
    | rightBracket =>
      exact readable.addTarget (drafts draft rfl) (fun _ => countsBack_of_readRecord) stepped
    | _ => contradiction
  | sweepClose draft index =>
    cases token with
    | rightBracket =>
      exact readable.addTarget (drafts draft rfl) (fun _ => countsBack_of_readSweep) stepped
    | _ => contradiction

/-- So do tokens one after the other. -/
theorem IsReadable.advance (readable : reader.IsReadable) {lexemes : List Lexeme}
    (scanned : ∀ lexeme ∈ lexemes, lexeme.token.IsScanned)
    (advanced : reader.advance lexemes = .ok next) : next.IsReadable := by
  induction lexemes generalizing reader with
  | nil =>
    cases advanced
    exact readable
  | cons lexeme rest inductionHypothesis =>
    obtain ⟨first, others⟩ := List.forall_mem_cons.mp scanned
    rw [Reader.advance] at advanced
    split at advanced
    · contradiction
    · rename_i stepped
      exact inductionHypothesis (readable.step first stepped) others advanced

/-- A reader whose blocks are closed has written a valid circuit that can be read again. -/
theorem IsReadable.closed (readable : reader.IsReadable) {circuit : Circuit}
    (closed : reader.closed = .ok circuit) : circuit.Valid ∧ circuit.IsReadable := by
  rw [Reader.closed] at closed
  split at closed
  · cases closed
    exact readable.written
  · contradiction

/-- A reader that comes to the end has written a valid circuit that can be read again. -/
theorem IsReadable.finish (readable : reader.IsReadable) {circuit : Circuit}
    (finished : reader.finish = .ok circuit) : circuit.Valid ∧ circuit.IsReadable := by
  obtain ⟨place, enclosing, written⟩ := reader
  have drafts : ∀ draft ∈ place.draft?, draft.IsReadable := readable.draft
  cases place with
  | statement => exact readable.closed finished
  | name draft | target draft =>
    simp only [Reader.finish] at finished
    split at finished
    · contradiction
    · rename_i ended
      exact (readable.endInstruction (drafts draft rfl) ended).closed finished
  | _ => contradiction

end Reader

/-! ### Circuits that have been read -/

namespace Circuit

/-- Whatever is read passes its checks and has names and targets that can be read. -/
theorem readable_of_parse {source : String} {circuit : Circuit}
    (reads : parse source = .ok circuit) : circuit.Valid ∧ circuit.IsReadable := by
  rw [parse] at reads
  split at reads
  · contradiction
  · rename_i scanned
    rw [ofLexemes] at reads
    split at reads
    · contradiction
    · rename_i advanced
      have tokens := Token.isScanned_of_scanLines scanned
      exact (Reader.isReadable_start.advance tokens advanced).finish reads

/-- A circuit that has been read is written and read again as it is, if its arguments are
    finite and below 2^64; otherwise its own text is refused. -/
theorem parse_text_of_parse {source : String} {circuit : Circuit}
    (reads : parse source = .ok circuit) :
    (circuit.HasSmallArguments → parse circuit.text = .ok circuit) ∧
      (¬ circuit.HasSmallArguments → ∃ fault, parse circuit.text = .error fault) := by
  obtain ⟨valid, readable⟩ := readable_of_parse reads
  have again := toOption_parse_text valid readable
  constructor
  · intro small
    rw [if_pos small] at again
    exact eq_ok_of_toOption again
  · intro large
    rw [if_neg large] at again
    exact exists_error_of_toOption again

/-- Names in lower case, an argument with an exponent and a comment are written anew in the one way
    of the printer, and that is read as the same circuit. -/
theorem parse_text_of_parse_exponent :
    ∃ circuit, parse "X_ERROR(25e-4) 0 !1\nrepeat 2 \x7b cnot rec[-1] 0 \x7d # feedback" =
        .ok circuit ∧
      circuit.HasSmallArguments ∧ parse circuit.text = .ok circuit := by
  have small : (match parse
        "X_ERROR(25e-4) 0 !1\nrepeat 2 \x7b cnot rec[-1] 0 \x7d # feedback" with
      | .ok circuit => decide circuit.HasSmallArguments
      | .error _ => false) = true := by
    decide +kernel
  split at small
  · rename_i circuit reads
    have fits := of_decide_eq_true small
    exact ⟨circuit, reads, fits, (parse_text_of_parse reads).1 fits⟩
  · contradiction

/-- Not every circuit that has been read can be read again: 1e20 is read as a number and
    written as an integer of more than 64 bits. -/
theorem parse_text_refuses_read :
    ∃ circuit, parse "QUBIT_COORDS(1e20) 0\n" = .ok circuit ∧
      circuit.text = "QUBIT_COORDS(100000000000000000000) 0\n" ∧
      parse circuit.text = .error (.unreadable 1 "100000000000000000000") := by
  have refused : (match parse "QUBIT_COORDS(1e20) 0\n" with
      | .ok circuit => decide (circuit.text = "QUBIT_COORDS(100000000000000000000) 0\n")
      | .error _ => false) = true := by
    decide +kernel
  split at refused
  · rename_i circuit reads
    have text := of_decide_eq_true refused
    refine ⟨circuit, reads, text, ?_⟩
    rw [text]
    rfl
  · contradiction

end Circuit

end StabilizerLayers
