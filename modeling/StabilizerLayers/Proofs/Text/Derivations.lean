import StabilizerLayers.Proofs.Text.Places

/-!
# Reading follows the grammar

Tokens are read as a circuit exactly if they derive it, and then in one way only. One token
takes a reader to one that means the same for the tokens behind it, or is refused if
nothing can be derived, and the induction over the tokens needs nothing else.
-/

namespace StabilizerLayers

open Grammar (EndsLine)

namespace Reader

variable {reader : Reader} {draft : Draft} {token : Token} {tokens : List Token} {line : Nat}
  {circuit : Circuit}

/-! ### Tokens -/

/-- A token between statements. -/
theorem derives_cons_iff (line : Nat) :
    reader.Derives (token :: tokens) circuit ↔
      Accepts (reader.stepStatement ⟨token, line⟩) tokens circuit := by
  cases token with
  | newline => exact iff_accepts rfl derives_newline_iff
  | rightBrace =>
    obtain ⟨place, enclosing, written⟩ := reader
    rw [derives_rightBrace_iff]
    cases enclosing with
    | nil => exact iff_refused rfl nofun
    | cons block outer =>
      refine iff_accepts rfl ⟨?_, fun derives => ⟨block, outer, rfl, derives⟩⟩
      rintro ⟨_, _, ⟨⟩, derives⟩
      exact derives
  | word word =>
    by_cases opens : word.toUpper = "REPEAT"
    · -- The reader forgets how the word was written, so it is put back in capitals.
      rw [derives_opening_iff opens, ← derives_opening_iff toUpper_repeat]
      exact iff_accepts (if_pos (beq_iff_eq.mpr opens)) Iff.rfl
    · rw [derives_word_iff opens]
      exact iff_accepts (if_neg (mt beq_iff_eq.mp opens)) Iff.rfl
  | _ =>
    refine iff_refused rfl ?_
    rintro ⟨block, closing, same, closes⟩
    cases block with
    | empty =>
      obtain rfl : _ = closing := same
      exact closes.endsBlock.elim
    | _ => cases same

/-- The token behind an instruction, which ends it first. -/
theorem derivesTargets_end_iff (ends : EndsLine (token :: tokens)) :
    reader.DerivesTargets draft (token :: tokens) circuit ↔
      Accepts (reader.stepTarget draft ⟨token, line⟩) tokens circuit := by
  rw [derivesTargets_of_endsLine ends, derives_cons_iff line]
  cases valid : draft.instruction.validate with
  | error fault =>
    have ended := reader.endInstruction_invalid valid
    cases token with
    | newline =>
      refine iff_refused ended fun both => ?_
      cases both.1
    | rightBrace =>
      have refused : reader.stepTarget draft ⟨.rightBrace, line⟩ =
          .error (.invalidInstruction draft.line fault) := by
        rw [stepTarget, ended]
      refine iff_refused refused fun both => ?_
      cases both.1
    | _ => exact ends.elim
  | ok _ =>
    have ended := reader.endInstruction_valid valid
    refine (and_iff_right rfl).trans ?_
    cases token with
    | newline =>
      rw [show reader.stepTarget draft ⟨.newline, line⟩ = _ from ended]
      rfl
    | rightBrace => simp only [stepTarget, ended]
    | _ => exact ends.elim

/-- A token among the targets. -/
theorem derivesTargets_cons_iff :
    reader.DerivesTargets draft (token :: tokens) circuit ↔
      Accepts (reader.stepTarget draft ⟨token, line⟩) tokens circuit := by
  by_cases ends : EndsLine (token :: tokens)
  · exact derivesTargets_end_iff ends
  · rw [derivesTargets_of_not_endsLine ends]
    cases token with
    | newline | rightBrace => exact absurd trivial ends
    | star => exact iff_accepts rfl derivesTarget_star_iff
    | integer index => exact derivesTarget_qubit_iff false
    | exclamation => exact iff_accepts rfl Iff.rfl
    | word text =>
      by_cases record : text = "rec"
      · subst record
        exact iff_accepts rfl Iff.rfl
      by_cases sweep : text = "sweep"
      · subst sweep
        exact iff_accepts rfl Iff.rfl
      rw [stepTarget_word record sweep]
      exact derivesTarget_pauli_iff false fun _ => ⟨record, sweep⟩
    | _ =>
      refine iff_refused rfl ?_
      rintro ⟨_ | ⟨_ | _, id⟩ | ⟨_ | _, word⟩ | ⟨lookback, back⟩ | index, rest, ⟨⟩, -⟩

/-- A token where an argument stands. -/
theorem derivesArgument_cons_iff :
    reader.DerivesArgument draft (token :: tokens) circuit ↔
      Accepts (reader.stepArgument draft ⟨token, line⟩) tokens circuit := by
  by_cases sign : token = .minus
  · subst sign
    exact iff_accepts rfl Iff.rfl
  · have number : reader.stepArgument draft ⟨token, line⟩ =
        reader.stepNumber draft false ⟨token, line⟩ := by
      cases token with
      | minus => contradiction
      | _ => rfl
    rw [number]
    exact derivesArgument_number_iff false fun _ => sign

/-- One token takes a reader on exactly as far as the grammar allows. Inside a phrase the
    tokens taken so far are put back, so a token that the phrase allows but does not end
    with leaves the meaning as it is. -/
theorem completes_cons_iff :
    reader.Completes (token :: tokens) circuit ↔
      Accepts (reader.step ⟨token, line⟩) tokens circuit := by
  obtain ⟨place, enclosing, written⟩ := reader
  -- A token that the reader refuses does not fit a derivation either: whatever is derived
  -- there starts with another token.
  cases place with
  | statement => exact derives_cons_iff line
  | blockCount =>
    cases token with
    | integer repetitions => exact iff_accepts rfl Iff.rfl
    | _ =>
      refine iff_refused rfl fun derives => ?_
      obtain ⟨_, _, ⟨⟩, -⟩ := (derives_opening_iff toUpper_repeat).mp derives
  | blockOpen repetitions =>
    cases token with
    | leftBrace =>
      refine iff_accepts rfl ((derives_opening_iff toUpper_repeat).trans ?_)
      constructor
      · rintro ⟨_, _, ⟨⟩, derives⟩
        exact derives
      · exact fun derives => ⟨_, _, rfl, derives⟩
    | _ =>
      refine iff_refused rfl fun derives => ?_
      obtain ⟨_, _, ⟨⟩, -⟩ := (derives_opening_iff toUpper_repeat).mp derives
  | name draft =>
    by_cases opens : token = .leftParenthesis
    · subst opens
      exact iff_accepts rfl Iff.rfl
    · rw [step_target rfl opens, ← derivesTargets_cons_iff]
      exact derivesArguments_of_ne fun rest same => opens (List.cons.inj same).1
  | firstArgument draft =>
    by_cases closes : token = .rightParenthesis
    · subst closes
      exact iff_accepts rfl derivesArguments_closed_iff
    · rw [step_argument rfl closes, ← derivesArgument_cons_iff]
      exact derivesArguments_open_iff closes
  | argument draft => exact derivesArgument_cons_iff
  | negativeArgument draft => exact derivesArgument_number_iff true nofun
  | separator draft =>
    cases token with
    | rightParenthesis => exact iff_accepts rfl derivesLater_rightParenthesis_iff
    | comma => exact iff_accepts rfl derivesLater_comma_iff
    | _ =>
      refine iff_refused rfl fun derives => ?_
      obtain ⟨_, ⟨⟩, -⟩ | ⟨_, ⟨⟩, -⟩ := derivesLater_iff.mp derives
  | target draft => exact derivesTargets_cons_iff
  | inverted draft =>
    cases token with
    | integer index => exact derivesTarget_qubit_iff true
    | word text => exact derivesTarget_pauli_iff true nofun
    | _ =>
      refine iff_refused rfl fun derives => ?_
      obtain ⟨_, _, ⟨⟩⟩ | ⟨_, _, ⟨⟩⟩ := DerivesTarget.inverted derives
  | recordOpen draft =>
    cases token with
    | leftBracket => exact iff_accepts rfl Iff.rfl
    | _ =>
      refine iff_refused rfl fun derives => ?_
      obtain ⟨_, _, ⟨⟩⟩ := DerivesTarget.record derives
  | recordIndex draft =>
    cases token with
    | minus | integer index => exact iff_accepts rfl Iff.rfl
    | _ =>
      refine iff_refused rfl fun derives => ?_
      obtain ⟨_, _, ⟨⟩⟩ := DerivesTarget.record derives
  | negativeRecordIndex draft =>
    cases token with
    | integer index => exact iff_accepts rfl Iff.rfl
    | _ =>
      refine iff_refused rfl fun derives => ?_
      obtain ⟨_, _, ⟨⟩⟩ := DerivesTarget.record derives
  | recordClose draft negative index =>
    cases token with
    | rightBracket => exact derivesTarget_record_iff negative
    | _ =>
      refine iff_refused rfl fun derives => ?_
      cases negative
      all_goals obtain ⟨_, _, ⟨⟩⟩ := DerivesTarget.record derives
  | sweepOpen draft =>
    cases token with
    | leftBracket => exact iff_accepts rfl Iff.rfl
    | _ =>
      refine iff_refused rfl fun derives => ?_
      obtain ⟨_, _, ⟨⟩⟩ := DerivesTarget.sweep derives
  | sweepIndex draft =>
    cases token with
    | integer index => exact iff_accepts rfl Iff.rfl
    | _ =>
      refine iff_refused rfl fun derives => ?_
      obtain ⟨_, _, ⟨⟩⟩ := DerivesTarget.sweep derives
  | sweepClose draft index =>
    cases token with
    | rightBracket => exact derivesTarget_sweep_iff
    | _ =>
      refine iff_refused rfl fun derives => ?_
      obtain ⟨_, _, ⟨⟩⟩ := DerivesTarget.sweep derives

/-- All blocks are closed exactly if nothing more has to be derived. -/
theorem closed_eq_ok_iff : reader.closed = .ok circuit ↔ reader.Derives [] circuit := by
  rw [derives_nil_iff, closed]
  cases reader.enclosing with
  | nil => simp
  | cons block outer => simp

/-- The end of the tokens ends an instruction. -/
theorem derivesTargets_nil_iff (among : reader.place.targetsOf? = some draft) :
    reader.DerivesTargets draft [] circuit ↔ reader.finish = .ok circuit := by
  have ends : reader.finish = (reader.endInstruction draft).bind closed := by
    obtain ⟨place, enclosing, written⟩ := reader
    cases place with
    | name other | target other =>
      cases among
      simp only [finish]
      cases endInstruction _ draft with
      | error fault => rfl
      | ok ended => rfl
    | _ => contradiction
  rw [ends, derivesTargets_of_endsLine Grammar.endsBlock_nil.endsLine]
  cases valid : draft.instruction.validate with
  | error fault =>
    rw [reader.endInstruction_invalid valid]
    refine iff_of_false (fun both => ?_) fun finished => ?_
    · cases both.1
    · cases finished
  | ok _ =>
    rw [reader.endInstruction_valid valid]
    exact (and_iff_right rfl).trans closed_eq_ok_iff.symm

/-- At the end of the tokens a reader has a circuit if no token is missing. -/
theorem completes_nil_iff : reader.Completes [] circuit ↔ reader.finish = .ok circuit := by
  obtain ⟨place, enclosing, written⟩ := reader
  cases place with
  | statement => exact closed_eq_ok_iff.symm
  | name draft =>
    have noArguments (rest : List Token) : [] ≠ .leftParenthesis :: rest :=
      (List.cons_ne_nil _ rest).symm
    exact (derivesArguments_of_ne noArguments).trans (derivesTargets_nil_iff rfl)
  | target draft => exact derivesTargets_nil_iff rfl
  | blockCount | blockOpen repetitions =>
    refine iff_of_false (fun derives => ?_) nofun
    obtain ⟨_, _, ⟨⟩, -⟩ := (derives_opening_iff toUpper_repeat).mp derives
  | firstArgument draft =>
    refine iff_of_false (fun derives => ?_) nofun
    obtain ⟨_, ⟨⟩, -⟩ | ⟨⟨_ | _, value⟩ | ⟨_ | _, value⟩, rest, ⟨⟩, -⟩ :=
      derivesArguments_leftParenthesis_iff.mp derives
  | argument draft | negativeArgument draft =>
    refine iff_of_false ?_ nofun
    rintro ⟨⟨_ | _, value⟩ | ⟨_ | _, value⟩, rest, ⟨⟩, -⟩
  | separator draft =>
    refine iff_of_false (fun derives => ?_) nofun
    obtain ⟨_, ⟨⟩, -⟩ | ⟨_, ⟨⟩, -⟩ := derivesLater_iff.mp derives
  | inverted draft =>
    refine iff_of_false (fun derives => ?_) nofun
    obtain ⟨_, _, ⟨⟩⟩ | ⟨_, _, ⟨⟩⟩ := DerivesTarget.inverted derives
  | recordOpen draft | recordIndex draft | negativeRecordIndex draft =>
    refine iff_of_false (fun derives => ?_) nofun
    obtain ⟨_, _, ⟨⟩⟩ := DerivesTarget.record derives
  | recordClose draft negative index =>
    refine iff_of_false (fun derives => ?_) nofun
    cases negative
    all_goals obtain ⟨_, _, ⟨⟩⟩ := DerivesTarget.record derives
  | sweepOpen draft | sweepIndex draft | sweepClose draft index =>
    refine iff_of_false (fun derives => ?_) nofun
    obtain ⟨_, _, ⟨⟩⟩ := DerivesTarget.sweep derives

/-- Tokens one after the other lead a reader to exactly the circuits that they complete. -/
theorem completes_iff {lexemes : List Lexeme} :
    reader.Completes (lexemes.map Lexeme.token) circuit ↔
      ∃ last, reader.advance lexemes = .ok last ∧ last.finish = .ok circuit := by
  induction lexemes generalizing reader with
  | nil => simp [completes_nil_iff, advance]
  | cons lexeme rest inductionHypothesis =>
    rw [List.map_cons, completes_cons_iff, Accepts, advance]
    cases reader.step lexeme with
    | error fault => simp
    | ok next => simp [inductionHypothesis]

end Reader

/-! ### Circuits -/

namespace Circuit

open Grammar

/-- Reading accepts exactly the grammar: tokens are read as a circuit if and only if they
    derive it, and no tokens have two derivations. -/
theorem ofLexemes_iff_derives :
    (∀ (lexemes : List Lexeme) (circuit : Circuit), ofLexemes lexemes = .ok circuit ↔
      ∃ block : Block, block.tokens = lexemes.map Lexeme.token ∧ block.circuit = circuit) ∧
    ∀ first second : Block, first.tokens = second.tokens → first = second := by
  refine ⟨fun lexemes circuit => ?_, fun _ _ same => Block.tokens_injective same⟩
  have reads : ofLexemes lexemes = .ok circuit ↔
      Reader.start.Completes (lexemes.map Lexeme.token) circuit := by
    rw [Reader.completes_iff, ofLexemes]
    cases Reader.start.advance lexemes with
    | error fault => simp
    | ok last => simp
  rw [reads]
  constructor
  · rintro ⟨block, closing, same, rfl, rfl⟩
    refine ⟨block, ?_, ?_⟩
    · rw [same, List.append_nil]
    · exact (Builder.circuit_foldl_push block.circuit .empty).symm
  · rintro ⟨block, same, rfl⟩
    refine ⟨block, [], ?_, rfl, Builder.circuit_foldl_push block.circuit .empty⟩
    rw [same, List.append_nil]

/-- A derivation with a block, an operator with a small letter and a leading zero, a
    product, arguments and a record. No line end stands behind the right brace and the last
    instruction. -/
def nested : Block :=
  .repetition "Repeat" (by decide +kernel) 2
    (.newline (.line
      ⟨"mpp", none,
        [.pauli true ⟨'x', ['0', '7'], .X, 7, rfl, nofun, List.all_eq_true.mp rfl, rfl⟩, .combiner,
          .pauli false ⟨'Z', ['1'], .Z, 1, rfl, nofun, List.all_eq_true.mp rfl, rfl⟩],
        by decide +kernel, by decide +kernel⟩
      .empty))
    (.lastLine ⟨"DETECTOR", some [.decimal true 0.5, .decimal false 2.5],
      [.record 1 (by decide)], by decide +kernel, by decide +kernel⟩)

/-- A block and an instruction behind it on the same line are read, names in any case. -/
theorem ofLexemes_nested :
    ofLexemes ([.word "Repeat", .integer 2, .leftBrace, .newline, .word "mpp", .exclamation,
        .word "x07", .star, .word "Z1", .newline, .rightBrace, .word "DETECTOR", .leftParenthesis,
        .minus, .decimal 0.5, .comma, .decimal 2.5, .rightParenthesis, .word "rec", .leftBracket,
        .minus, .integer 1, .rightBracket].map (⟨·, 1⟩)) =
      .ok [.block 2 [.single ⟨.known .measureProduct,
          [.pauli .X 7 true, .combiner, .pauli .Z 1 false], []⟩],
        .single ⟨.known .detector, [.record 1], [-0.5, 2.5]⟩] := by
  have product : Operator.ofName "mpp" = .known .measureProduct := by decide +kernel
  have detector : Operator.ofName "DETECTOR" = .known .detector := by decide +kernel
  refine (ofLexemes_iff_derives.1 _ _).mpr ⟨nested, rfl, ?_⟩
  simp only [nested, Block.circuit, Line.instruction, product, detector]
  rfl

end Circuit

end StabilizerLayers
