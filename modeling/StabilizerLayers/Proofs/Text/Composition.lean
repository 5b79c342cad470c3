import StabilizerLayers.Proofs.Text.RoundTrip

/-!
# Texts one below the other

A text that can be read, a line end and a second text are read as the operations of the
first followed by those of the second. If the second is refused, the whole is refused for the
same reason, on a line that is lower by the lines of the first.

The line end brings the reader back between statements, with all blocks closed. From there on
it does what a fresh reader does with the second text, except that every line is lower and
that the operations of the first text stand before what the outermost block has. `Reader.below`
is that reader, and one token keeps it so (`step_below`).
-/

namespace StabilizerLayers

/-! ### Lines further down -/

/-- The token on a line that is lower by a number of lines. -/
def Lexeme.below (lines : Nat) (lexeme : Lexeme) : Lexeme := ⟨lexeme.token, lexeme.line + lines⟩

/-- The same refusal on a line that is lower by a number of lines. The end of the text has no
    line. -/
def ParseError.below (lines : Nat) : ParseError → ParseError
  | unreadable line text => unreadable (line + lines) text
  | unexpected line expected found => unexpected (line + lines) expected found
  | unexpectedEnd expected => unexpectedEnd expected
  | invalidTarget line fault => invalidTarget (line + lines) fault
  | invalidInstruction line fault => invalidInstruction (line + lines) fault

/-- An outcome further down: a refusal is moved down, and a result is changed by `move`. -/
def lowered {α β : Type} (lines : Nat) (move : α → β) : Except ParseError α → Except ParseError β
  | .error fault => .error (fault.below lines)
  | .ok value => .ok (move value)

/-! ### Scanning -/

namespace Token

/-- A line is scanned in the same way wherever it stands. -/
theorem scan_below (lines line skipped : Nat) (characters : List Char) :
    scan (line + lines) skipped characters =
      lowered lines (List.map (Lexeme.below lines)) (scan line skipped characters) := by
  induction characters generalizing skipped with
  | nil => simp only [scan, lowered, List.map_nil]
  | cons first rest inductionHypothesis =>
    cases skipped with
    | succ skipped => simp only [scan, inductionHypothesis]
    | zero =>
      simp only [scan]
      cases read first rest with
      | blank => exact inductionHypothesis 0
      | comment => rfl
      | unreadable text => rfl
      | token token more =>
        simp only [inductionHypothesis more]
        cases scan line more rest with
        | error fault => rfl
        | ok lexemes => rfl

/-- Lines further down are scanned in the same way. -/
theorem scanLines_below (lines number : Nat) (texts : List (List Char)) :
    scanLines (number + lines) texts =
      lowered lines (List.map (Lexeme.below lines)) (scanLines number texts) := by
  induction texts generalizing number with
  | nil => rfl
  | cons line rest inductionHypothesis =>
    cases rest with
    | nil => exact scan_below lines number 0 line
    | cons next others =>
      have deeper : number + lines + 1 = number + 1 + lines := by omega
      simp only [scanLines, scan_below, deeper, inductionHypothesis]
      cases scan number 0 line with
      | error fault => rfl
      | ok lexemes =>
        cases scanLines (number + 1) (next :: others) with
        | error fault => rfl
        | ok later =>
          simp only [lowered, List.map_append, List.map_cons]
          rfl

/-- A line end cuts a text in two. -/
theorem splitLines_append (current first second : List Char) :
    splitLines current (first ++ '\n' :: second) =
      splitLines current first ++ splitLines [] second := by
  induction first generalizing current with
  | nil => simp only [List.nil_append, splitLines, List.singleton_append]
  | cons character rest inductionHypothesis =>
    by_cases ends : character = '\n'
    · subst ends
      simp only [List.cons_append, splitLines, inductionHypothesis]
    · rw [List.cons_append, splitLines_cons ends, splitLines_cons ends, inductionHypothesis]

/-- Lines behind lines that can be scanned. -/
theorem scanLines_append {number : Nat} {first second : List (List Char)} {lexemes : List Lexeme}
    (firstSome : first ≠ []) (secondSome : second ≠ [])
    (scanned : scanLines number first = .ok lexemes) :
    ∃ line, scanLines number (first ++ second) =
      (scanLines (number + first.length) second).map (lexemes ++ ⟨newline, line⟩ :: ·) := by
  induction first generalizing number lexemes with
  | nil => contradiction
  | cons text rest inductionHypothesis =>
    obtain ⟨next, others, rfl⟩ := List.exists_cons_of_ne_nil secondSome
    -- The last line of the first part is ended by the second part, as a text ends without a
    -- line end.
    cases rest with
    | nil =>
      refine ⟨number, ?_⟩
      rw [scanLines] at scanned
      simp only [List.singleton_append, scanLines, scanned, List.length_singleton]
      cases scanLines (number + 1) (next :: others) with
      | error fault => rfl
      | ok later => rfl
    | cons middle more =>
      simp only [scanLines] at scanned
      split at scanned
      · contradiction
      · rename_i here scannedHere
        split at scanned
        · contradiction
        · rename_i later scannedLater
          cases scanned
          obtain ⟨line, appended⟩ := inductionHypothesis (List.cons_ne_nil _ _) scannedLater
          have position : number + 1 + (middle :: more).length =
              number + (text :: middle :: more).length := by
            simp only [List.length_cons]
            omega
          refine ⟨line, ?_⟩
          rw [position] at appended
          simp only [List.cons_append, scanLines, scannedHere] at appended ⊢
          rw [appended]
          cases scanLines (number + (text :: middle :: more).length) (next :: others) with
          | error fault => rfl
          | ok last => simp [Except.map]

end Token

/-! ### Reading -/

/-- An instruction whose name stands on a lower line. -/
def Draft.below (lines : Nat) (draft : Draft) : Draft := { draft with line := draft.line + lines }

/-- A place on a lower line. -/
def Place.below (lines : Nat) : Place → Place
  | statement => statement
  | blockCount => blockCount
  | blockOpen repetitions => blockOpen repetitions
  | name draft => name (draft.below lines)
  | firstArgument draft => firstArgument (draft.below lines)
  | argument draft => argument (draft.below lines)
  | negativeArgument draft => negativeArgument (draft.below lines)
  | separator draft => separator (draft.below lines)
  | target draft => target (draft.below lines)
  | inverted draft => inverted (draft.below lines)
  | recordOpen draft => recordOpen (draft.below lines)
  | recordIndex draft => recordIndex (draft.below lines)
  | negativeRecordIndex draft => negativeRecordIndex (draft.below lines)
  | recordClose draft negative index => recordClose (draft.below lines) negative index
  | sweepOpen draft => sweepOpen (draft.below lines)
  | sweepIndex draft => sweepIndex (draft.below lines)
  | sweepClose draft index => sweepClose (draft.below lines) index

/-- A builder that had something written before. -/
def Builder.after (above builder : Builder) : Builder :=
  ⟨builder.latestFirst ++ above.latestFirst⟩

/-- Open blocks, the outermost of which had something written before. -/
def OpenBlock.after (above : Builder) : List OpenBlock → List OpenBlock
  | [] => []
  | [outermost] => [⟨outermost.repetitions, above.after outermost.before⟩]
  | block :: next :: outer => block :: OpenBlock.after above (next :: outer)

namespace Reader

/-- A reader of a text that stands below another one, from which `above` has been written. -/
def below (lines : Nat) (above : Builder) (reader : Reader) : Reader where
  place := reader.place.below lines
  enclosing := OpenBlock.after above reader.enclosing
  written :=
    match reader.enclosing with
    | [] => above.after reader.written
    | _ :: _ => reader.written

variable (lines : Nat) (above : Builder) (reader : Reader) (draft : Draft) (lexeme : Lexeme)

/-- An instruction further down ends in the same way. -/
theorem endInstruction_below :
    (reader.below lines above).endInstruction (draft.below lines) =
      lowered lines (below lines above) (reader.endInstruction draft) := by
  have same : (draft.below lines).instruction = draft.instruction := rfl
  obtain ⟨place, enclosing, written⟩ := reader
  simp only [endInstruction, Builder.append, same]
  cases draft.instruction.validate with
  | error fault => rfl
  | ok _ =>
    cases enclosing with
    | nil => rfl
    | cons block outer => rfl

/-- A target further down is taken or refused in the same way. -/
theorem addTarget_below (line : Nat) (target? : Except TargetError Target) :
    (reader.below lines above).addTarget (draft.below lines) (line + lines) target? =
      lowered lines (below lines above) (reader.addTarget draft line target?) := by
  cases target? with
  | error fault => rfl
  | ok target => rfl

/-- A statement further down begins in the same way. -/
theorem stepStatement_below :
    (reader.below lines above).stepStatement (lexeme.below lines) =
      lowered lines (below lines above) (reader.stepStatement lexeme) := by
  obtain ⟨place, enclosing, written⟩ := reader
  obtain ⟨token, line⟩ := lexeme
  cases token with
  | rightBrace =>
    -- Closing the outermost block leaves what was written before it.
    cases enclosing with
    | nil => rfl
    | cons block outer =>
      cases outer with
      | nil => rfl
      | cons next others => rfl
  | word word =>
    simp only [stepStatement, Lexeme.below]
    split
    · rfl
    · rfl
  | _ => rfl

/-- A number further down is taken or refused in the same way. -/
theorem stepNumber_below (negative : Bool) :
    (reader.below lines above).stepNumber (draft.below lines) negative (lexeme.below lines) =
      lowered lines (below lines above) (reader.stepNumber draft negative lexeme) := by
  obtain ⟨token, line⟩ := lexeme
  cases token with
  | _ => rfl

/-- An argument further down is taken or refused in the same way. -/
theorem stepArgument_below :
    (reader.below lines above).stepArgument (draft.below lines) (lexeme.below lines) =
      lowered lines (below lines above) (reader.stepArgument draft lexeme) := by
  obtain ⟨token, line⟩ := lexeme
  cases token with
  | _ => rfl

/-- A token at a target further down is taken or refused in the same way. -/
theorem stepTarget_below :
    (reader.below lines above).stepTarget (draft.below lines) (lexeme.below lines) =
      lowered lines (below lines above) (reader.stepTarget draft lexeme) := by
  obtain ⟨token, line⟩ := lexeme
  cases token with
  | newline => exact endInstruction_below lines above reader draft
  | rightBrace =>
    simp only [stepTarget, Lexeme.below, endInstruction_below]
    cases reader.endInstruction draft with
    | error fault => rfl
    | ok ended => exact stepStatement_below lines above ended ⟨.rightBrace, line⟩
  | star => exact addTarget_below lines above reader draft line (.ok .combiner)
  | integer index =>
    exact addTarget_below lines above reader draft line ((readQubit index).map (.qubit · false))
  | word word =>
    by_cases record : word = "rec"
    · subst record
      rfl
    by_cases sweep : word = "sweep"
    · subst sweep
      rfl
    simp only [Lexeme.below, stepTarget_word record sweep, addTarget_below]
  | _ => rfl

/-- One token takes a reader below another text to where it takes a fresh one, further down. -/
theorem step_below :
    (reader.below lines above).step (lexeme.below lines) =
      lowered lines (below lines above) (reader.step lexeme) := by
  obtain ⟨place, enclosing, written⟩ := reader
  obtain ⟨token, line⟩ := lexeme
  cases place with
  | statement => exact stepStatement_below lines above _ ⟨token, line⟩
  | blockOpen repetitions =>
    cases token with
    | leftBrace =>
      -- What has been written so far goes into the block that is opened.
      cases enclosing with
      | nil => rfl
      | cons block outer => rfl
    | _ => rfl
  | name draft =>
    by_cases opens : token = .leftParenthesis
    · subst opens
      rfl
    · rw [step_target rfl opens]
      exact (step_target rfl opens).trans (stepTarget_below lines above _ draft ⟨token, line⟩)
  | firstArgument draft =>
    by_cases closes : token = .rightParenthesis
    · subst closes
      rfl
    · rw [step_argument rfl closes]
      exact (step_argument rfl closes).trans
        (stepArgument_below lines above _ draft ⟨token, line⟩)
  | argument draft => exact stepArgument_below lines above _ draft ⟨token, line⟩
  | negativeArgument draft => exact stepNumber_below lines above _ draft ⟨token, line⟩ true
  | target draft => exact stepTarget_below lines above _ draft ⟨token, line⟩
  | inverted draft =>
    cases token with
    | integer index => exact addTarget_below lines above _ draft line _
    | word word => exact addTarget_below lines above _ draft line _
    | _ => rfl
  | recordClose draft negative index =>
    cases token with
    | rightBracket => exact addTarget_below lines above _ draft line (readRecord negative index)
    | _ => rfl
  | sweepClose draft index =>
    cases token with
    | rightBracket => exact addTarget_below lines above _ draft line (readSweep index)
    | _ => rfl
  | blockCount | separator draft | recordOpen draft | recordIndex draft
  | negativeRecordIndex draft | sweepOpen draft | sweepIndex draft =>
    cases token with
    | _ => rfl

/-- A run below another text goes where a fresh one goes, further down. -/
theorem advance_below (lexemes : List Lexeme) :
    (reader.below lines above).advance (lexemes.map (Lexeme.below lines)) =
      lowered lines (below lines above) (reader.advance lexemes) := by
  induction lexemes generalizing reader with
  | nil => rfl
  | cons lexeme rest inductionHypothesis =>
    rw [List.map_cons, advance, advance, step_below]
    cases reader.step lexeme with
    | error fault => rfl
    | ok next => exact inductionHypothesis next

/-- Below another circuit the same blocks are missing, or both circuits are written. -/
theorem closed_below :
    (reader.below lines above).closed =
      lowered lines (above.circuit ++ ·) reader.closed := by
  obtain ⟨place, enclosing, written⟩ := reader
  cases enclosing with
  | nil =>
    have circuit : (above.after written).circuit = above.circuit ++ written.circuit :=
      List.reverse_append
    exact congrArg Except.ok circuit
  | cons block outer =>
    cases outer with
    | nil => rfl
    | cons next others => rfl

/-- A target may begin at the same places further down. -/
theorem targetsOf?_below (place : Place) :
    (place.below lines).targetsOf? = place.targetsOf?.map (Draft.below lines) := by
  cases place with
  | _ => rfl

/-- The end of the text comes to the same below another circuit, which stands in front. -/
theorem finish_below :
    (reader.below lines above).finish =
      lowered lines (above.circuit ++ ·) reader.finish := by
  cases among : reader.place.targetsOf? with
  | some draft =>
    have amongBelow : (reader.below lines above).place.targetsOf? = some (draft.below lines) := by
      change (reader.place.below lines).targetsOf? = _
      rw [targetsOf?_below, among, Option.map_some]
    rw [finish_of_targetsOf? among, finish_of_targetsOf? amongBelow, endInstruction_below]
    cases reader.endInstruction draft with
    | error fault => rfl
    | ok ended => exact closed_below lines above ended
  | none =>
    obtain ⟨place, enclosing, written⟩ := reader
    cases place with
    | statement => exact closed_below lines above ⟨.statement, enclosing, written⟩
    | name draft | target draft => contradiction
    | _ => rfl

/-- A reader with a circuit has closed all blocks and written the circuit. -/
theorem eq_of_closed {circuit : Circuit} (finished : reader.closed = .ok circuit) :
    reader.enclosing = [] ∧ reader.written = ⟨circuit.reverse⟩ := by
  obtain ⟨place, enclosing, written⟩ := reader
  cases enclosing with
  | nil =>
    obtain rfl : written.circuit = circuit := Except.ok.inj finished
    exact ⟨rfl, congrArg Builder.mk (List.reverse_reverse _).symm⟩
  | cons block outer => cases finished

/-- Where a text may end, a line end leads between statements outside all blocks. -/
theorem step_newline_of_finish {circuit : Circuit} (finished : reader.finish = .ok circuit)
    (line : Nat) :
    reader.step ⟨.newline, line⟩ = .ok ⟨.statement, [], ⟨circuit.reverse⟩⟩ := by
  obtain ⟨place, enclosing, written⟩ := reader
  cases place with
  | statement =>
    obtain ⟨rfl, rfl⟩ := eq_of_closed _ finished
    rfl
  | name draft | target draft =>
    simp only [finish] at finished
    split at finished
    · contradiction
    · rename_i ended endsHere
      obtain ⟨place, outer, others⟩ := ended
      have between : place = .statement := place_of_endInstruction endsHere
      obtain ⟨rfl, rfl⟩ := eq_of_closed _ finished
      rw [← between]
      exact endsHere
  | _ => cases finished

end Reader

/-! ### Texts -/

namespace Circuit

/-- Reading a text that stands below one that can be read. -/
theorem parse_below {first : String} {circuit : Circuit} (reads : parse first = .ok circuit)
    (second : String) :
    parse (first ++ "\n" ++ second) =
      lowered (first.toList.count '\n' + 1) (circuit ++ ·) (parse second) := by
  rw [parse] at reads
  split at reads
  · contradiction
  · rename_i lexemes scanned
    rw [ofLexemes] at reads
    split at reads
    · contradiction
    · rename_i reader advanced
      have characters : (first ++ "\n" ++ second).toList =
          first.toList ++ '\n' :: second.toList := by
        rw [String.toList_append, String.toList_append, List.append_assoc]
        rfl
      obtain ⟨line, appended⟩ := Token.scanLines_append (Token.splitLines_ne_nil [] first.toList)
        (Token.splitLines_ne_nil [] second.toList) scanned
      rw [Token.length_splitLines, Token.scanLines_below] at appended
      rw [parse, parse, Token.scanText, characters, Token.splitLines_append, appended,
        Token.scanText]
      cases Token.scanLines 1 (Token.splitLines [] second.toList) with
      | error fault => rfl
      | ok others =>
        -- The line end leads to a fresh reader that stands below the first text.
        have between : Reader.start.advance (lexemes ++ [⟨.newline, line⟩]) =
            .ok (Reader.start.below (first.toList.count '\n' + 1) ⟨circuit.reverse⟩) := by
          rw [Reader.advance_append_of_ok advanced, Reader.advance,
            reader.step_newline_of_finish reads]
          rfl
        simp only [lowered, Except.map, ofLexemes]
        rw [List.append_cons, Reader.advance_append_of_ok between, Reader.advance_below]
        cases Reader.start.advance others with
        | error fault => rfl
        | ok last =>
          have whole : (⟨circuit.reverse⟩ : Builder).circuit = circuit := List.reverse_reverse _
          simp only [lowered]
          rw [Reader.finish_below, whole]
          rfl

end Circuit

/-! ### Lines without statements -/

namespace Token

/-- Whether a line holds nothing but blanks, and perhaps a comment behind them. -/
def isVoid (line : List Char) : Bool :=
  match line.dropWhile isBlank with
  | [] => true
  | first :: _ => first == '#'

/-- Whether all lines of a text are without statements. -/
def AllVoid (source : String) : Prop :=
  ∀ line ∈ splitLines [] source.toList, isVoid line = true

instance : DecidablePred AllVoid := fun source =>
  inferInstanceAs (Decidable (∀ line ∈ splitLines [] source.toList, isVoid line = true))

/-- A line without statements has no tokens. -/
theorem scan_of_isVoid {line : List Char} (void : isVoid line = true) (number : Nat) :
    scan number 0 line = .ok [] := by
  induction line with
  | nil => rfl
  | cons first rest inductionHypothesis =>
    by_cases blank : isBlank first = true
    · have later : isVoid rest = true := by
        simpa only [isVoid, List.dropWhile_cons_of_pos blank] using void
      have reads : read first rest = .blank := if_pos blank
      simp only [scan, reads]
      exact inductionHypothesis later
    · have comment : (first == '#') = true := by
        simpa only [isVoid, List.dropWhile_cons_of_neg blank] using void
      have reads : read first rest = .comment := by
        simp only [read, blank, comment, Bool.false_eq_true, if_false, if_true]
      simp only [scan, reads]

/-- Lines without statements leave nothing but their ends. -/
theorem scanLines_of_isVoid {lines : List (List Char)} (void : ∀ line ∈ lines, isVoid line = true)
    (number : Nat) :
    ∃ lexemes, scanLines number lines = .ok lexemes ∧
      ∀ lexeme ∈ lexemes, lexeme.token = .newline := by
  induction lines generalizing number with
  | nil => exact ⟨[], rfl, List.forall_mem_nil _⟩
  | cons line rest inductionHypothesis =>
    obtain ⟨here, later⟩ := List.forall_mem_cons.mp void
    cases rest with
    | nil => exact ⟨[], scan_of_isVoid here number, List.forall_mem_nil _⟩
    | cons next others =>
      obtain ⟨lexemes, scanned, ends⟩ := inductionHypothesis later (number + 1)
      refine ⟨⟨newline, number⟩ :: lexemes, ?_, List.forall_mem_cons.mpr ⟨rfl, ends⟩⟩
      simp only [scanLines, scan_of_isVoid here, scanned, List.nil_append]

end Token

/-- Line ends leave a reader between statements where it is. -/
theorem Reader.advance_newlines {reader : Reader} (between : reader.place = .statement)
    {lexemes : List Lexeme} (ends : ∀ lexeme ∈ lexemes, lexeme.token = .newline) :
    reader.advance lexemes = .ok reader := by
  obtain ⟨place, enclosing, written⟩ := reader
  obtain rfl : place = .statement := between
  induction lexemes with
  | nil => rfl
  | cons lexeme rest inductionHypothesis =>
    obtain ⟨token, line⟩ := lexeme
    obtain ⟨rfl, later⟩ := List.forall_mem_cons.mp ends
    exact inductionHypothesis later

namespace Circuit

/-- A text without statements is the empty circuit. -/
theorem parse_of_allVoid {source : String} (void : Token.AllVoid source) :
    parse source = .ok [] := by
  obtain ⟨lexemes, scanned, ends⟩ := Token.scanLines_of_isVoid void 1
  have stays : Reader.start.advance lexemes = .ok Reader.start :=
    Reader.advance_newlines rfl ends
  rw [parse, Token.scanText, scanned]
  simp only [ofLexemes, stays]
  rfl

/-- Reading is compositional over lines. Behind a text that can be read and a line end, a
    second text is read as by itself; a refusal of it is the same refusal, lower by the lines
    of the first text. Lines without statements in between change nothing. -/
theorem parse_lines_append {first : String} {circuit : Circuit} (reads : parse first = .ok circuit)
    (second : String) :
    (∀ next, parse second = .ok next → parse (first ++ "\n" ++ second) = .ok (circuit ++ next)) ∧
    (∀ fault, parse second = .error fault →
      parse (first ++ "\n" ++ second) = .error (fault.below (first.toList.count '\n' + 1))) ∧
    (∀ between next, Token.AllVoid between → parse second = .ok next →
      parse (first ++ "\n" ++ between ++ "\n" ++ second) = .ok (circuit ++ next)) := by
  refine ⟨?_, ?_, ?_⟩
  · intro next readsNext
    rw [parse_below reads, readsNext]
    rfl
  · intro fault refused
    rw [parse_below reads, refused]
    rfl
  · intro between next void readsNext
    have longer : parse (first ++ "\n" ++ between) = .ok circuit := by
      rw [parse_below reads, parse_of_allVoid void]
      exact congrArg Except.ok (List.append_nil circuit)
    rw [parse_below longer, readsNext]
    rfl

/-- Below the three lines of a block, a measurement is read, also behind lines without
    statements, and what is refused on the second line of a text is refused on the sixth. -/
theorem parse_lines_append_block :
    parse ("REPEAT 2 \x7b\n    H 0\n\x7d\n" ++ "\n" ++ "M 1\n") =
      .ok [.block 2 [.single (.on (.exchange .Y) [.plain 0])],
        .single (.on (.measure .Z) [.plain 1])] ∧
    parse ("REPEAT 2 \x7b\n    H 0\n\x7d\n" ++ "\n" ++ "# one\n) 0") =
      .error (.unexpected 6 .instruction .rightParenthesis) ∧
    parse ("REPEAT 2 \x7b\n    H 0\n\x7d\n" ++ "\n" ++ " \t\n# nothing" ++ "\n" ++ "M 1\n") =
      .ok [.block 2 [.single (.on (.exchange .Y) [.plain 0])],
        .single (.on (.measure .Z) [.plain 1])] := by
  have reads : parse "REPEAT 2 \x7b\n    H 0\n\x7d\n" =
      .ok [.block 2 [.single (.on (.exchange .Y) [.plain 0])]] := by
    have text : Circuit.text [.block 2 [.single (.on (.exchange .Y) [.plain 0])]] =
        "REPEAT 2 \x7b\n    H 0\n\x7d\n" := by decide +kernel
    rw [← text]
    apply parse_text
    all_goals decide +kernel
  have readsNext : parse "M 1\n" = .ok [.single (.on (.measure .Z) [.plain 1])] := by
    have text : Circuit.text [.single (.on (.measure .Z) [.plain 1])] = "M 1\n" := by
      decide +kernel
    rw [← text]
    apply parse_text
    all_goals decide +kernel
  have refused : parse "# one\n) 0" =
      .error (.unexpected 2 .instruction .rightParenthesis) := rfl
  have void : Token.AllVoid " \t\n# nothing" := by decide
  refine ⟨?_, ?_, ?_⟩
  · exact (parse_lines_append reads _).1 _ readsNext
  · exact (parse_lines_append reads _).2.1 _ refused
  · exact (parse_lines_append reads _).2.2 _ _ void readsNext

end Circuit

end StabilizerLayers
