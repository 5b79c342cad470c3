import StabilizerLayers.Proofs.Text.Offsets
import StabilizerLayers.Proofs.Text.Steps

/-!
# The lines of refusals

A refusal tells a line. It is that of the token which is refused, of the target which is
malformed, or of the name of the instruction which does not pass its check (`Reported`).

The line of a token can be told by a counter of the line ends that have been taken before it,
and by the byte at which it starts. At each point of a run both agree (`lineBehind_eq_lineAt`),
so it does not matter which of them a refusal is told by, nor whether the counter is read
before or behind a token that is no line end.
-/

namespace StabilizerLayers

open Grammar (EndsLine)

/-! ### Counting line ends -/

/-- The line behind a token on a line. -/
def Token.nextLine (line : Nat) : Token → Nat
  | newline => line + 1
  | _ => line

/-- A token that is no line end has the next token on its line. -/
theorem Token.nextLine_of_ne {token : Token} (goesOn : token ≠ .newline) (line : Nat) :
    token.nextLine line = line := by
  cases token with
  | newline => contradiction
  | _ => rfl

/-- The line behind tokens that have been taken, counted from one. -/
def lineBehind (taken : List Token) : Nat := taken.foldl Token.nextLine 1

/-- Tokens of one line leave the counter where it is. -/
theorem foldl_nextLine_of_ne {tokens : List Token} (oneLine : ∀ token ∈ tokens, token ≠ .newline)
    (line : Nat) : tokens.foldl Token.nextLine line = line := by
  induction tokens with
  | nil => rfl
  | cons first rest inductionHypothesis =>
    obtain ⟨goesOn, later⟩ := List.forall_mem_cons.mp oneLine
    rw [List.foldl_cons, Token.nextLine_of_ne goesOn]
    exact inductionHypothesis later

/-- Whether tokens stand on the lines that a counter tells. -/
def Numbered (line : Nat) : List Lexeme → Prop
  | [] => True
  | lexeme :: rest => lexeme.line = line ∧ Numbered (lexeme.token.nextLine line) rest

/-- The counter goes on from where the tokens before have brought it. -/
theorem numbered_append_iff {line : Nat} {first second : List Lexeme} :
    Numbered line (first ++ second) ↔
      Numbered line first ∧
        Numbered ((first.map Lexeme.token).foldl Token.nextLine line) second := by
  induction first generalizing line with
  | nil => simp only [List.nil_append, Numbered, List.map_nil, List.foldl_nil, true_and]
  | cons lexeme rest inductionHypothesis =>
    rw [List.cons_append, Numbered, Numbered, inductionHypothesis, and_assoc]
    rfl

/-- Tokens that end no line stand on the lines that a counter tells if they are all on one. -/
theorem numbered_iff_of_ne {line : Nat} {lexemes : List Lexeme}
    (oneLine : ∀ lexeme ∈ lexemes, lexeme.token ≠ .newline) :
    Numbered line lexemes ↔ ∀ lexeme ∈ lexemes, lexeme.line = line := by
  induction lexemes with
  | nil => exact iff_of_true trivial (List.forall_mem_nil _)
  | cons lexeme rest inductionHypothesis =>
    obtain ⟨goesOn, later⟩ := List.forall_mem_cons.mp oneLine
    rw [Numbered, Token.nextLine_of_ne goesOn, inductionHypothesis later, List.forall_mem_cons]

/-- Behind some tokens the next one stands on the line that the counter tells. -/
theorem Numbered.line_eq {line : Nat} {taken rest : List Lexeme} {next : Lexeme}
    (numbered : Numbered line (taken ++ next :: rest)) :
    (taken.map Lexeme.token).foldl Token.nextLine line = next.line :=
  (numbered_append_iff.mp numbered).2.1.symm

namespace Token

/-- No token within a line is a line end. -/
theorem ne_newline_of_read {first : Char} {rest : List Char} {token : Token} {more : Nat}
    (reads : read first rest = .token token more) : token ≠ newline := by
  rintro rfl
  unfold read at reads
  split at reads
  · contradiction
  split at reads
  · contradiction
  split at reads
  · simp only [readNumber] at reads
    split at reads
    · split at reads
      · cases reads
      · cases reads
    · split at reads
      · cases reads
      · split at reads
        · cases reads
        · cases reads
  split at reads
  · cases reads
  split at reads
  · rename_i mark
    cases reads
    unfold mark? at mark
    split at mark
    all_goals cases mark
  · cases reads

/-- The tokens of a line stand on it. -/
theorem line_eq_of_mem_scan {line skipped : Nat} {characters : List Char} {lexemes : List Lexeme}
    (scanned : scan line skipped characters = .ok lexemes) :
    ∀ lexeme ∈ lexemes, lexeme.line = line ∧ lexeme.token ≠ newline := by
  induction characters generalizing skipped lexemes with
  | nil =>
    rw [scan] at scanned
    cases scanned
    exact List.forall_mem_nil _
  | cons first rest inductionHypothesis =>
    cases skipped with
    | succ skipped => exact inductionHypothesis scanned
    | zero =>
      rw [scan] at scanned
      split at scanned
      · exact inductionHypothesis scanned
      · cases scanned
        exact List.forall_mem_nil _
      · contradiction
      · rename_i reads
        split at scanned
        · contradiction
        · rename_i scannedRest
          cases scanned
          exact List.forall_mem_cons.mpr
            ⟨⟨rfl, ne_newline_of_read reads⟩, inductionHypothesis scannedRest⟩

/-- The tokens of a line stand where the counter tells, and it does not move. -/
theorem numbered_of_scan {line skipped : Nat} {characters : List Char} {lexemes : List Lexeme}
    (scanned : scan line skipped characters = .ok lexemes) :
    Numbered line lexemes ∧ ∀ lexeme ∈ lexemes, lexeme.token ≠ newline := by
  have onLine := line_eq_of_mem_scan scanned
  have oneLine : ∀ lexeme ∈ lexemes, lexeme.token ≠ newline := by
    intro lexeme member
    exact (onLine lexeme member).2
  refine ⟨(numbered_iff_of_ne oneLine).mpr ?_, oneLine⟩
  intro lexeme member
  exact (onLine lexeme member).1

/-- Tokens of lines stand where a counter of line ends tells. -/
theorem numbered_of_scanLines {number : Nat} {lines : List (List Char)} {lexemes : List Lexeme}
    (scanned : scanLines number lines = .ok lexemes) : Numbered number lexemes := by
  induction lines generalizing number lexemes with
  | nil =>
    cases scanned
    trivial
  | cons line rest inductionHypothesis =>
    cases rest with
    | nil => exact (numbered_of_scan scanned).1
    | cons next others =>
      simp only [scanLines] at scanned
      split at scanned
      · contradiction
      · rename_i here scannedLine
        split at scanned
        · contradiction
        · rename_i later scannedRest
          cases scanned
          obtain ⟨numberedLine, oneLine⟩ := numbered_of_scan scannedLine
          have stays : (here.map Lexeme.token).foldl nextLine number = number :=
            foldl_nextLine_of_ne (List.forall_mem_map.mpr oneLine) number
          rw [numbered_append_iff, stays]
          exact ⟨numberedLine, rfl, inductionHypothesis scannedRest⟩

end Token

/-! ### Points of a run -/

/-- The reader behind tokens of a text. -/
def Reader.behind (source : String) (taken : List Span) : Except ParseError Reader :=
  start.advance (taken.map (Span.lexeme (lineStarts source)))

/-- Finding the lines of tokens leaves the tokens as they are. -/
theorem map_token_lexeme (starts : List Nat) (spans : List Span) :
    (spans.map (Span.lexeme starts)).map Lexeme.token = spans.map Span.token := by
  rw [List.map_map]
  rfl

variable {source : String}

/-- The lines found by bytes are those that the counter tells. -/
theorem Token.numbered_of_spans {spans : List Span} (scanned : Token.spans source = .ok spans) :
    Numbered 1 (spans.map (Span.lexeme (lineStarts source))) := by
  have lines := scanText_eq_located source
  rw [scanned] at lines
  exact numbered_of_scanLines lines

/-- At every point of a run, the counter tells the line of the byte at which the next token
    starts. -/
theorem lineBehind_eq_lineAt {taken rest : List Span} {next : Span}
    (scanned : Token.spans source = .ok (taken ++ next :: rest)) :
    lineBehind (taken.map Span.token) = lineAt (lineStarts source) next.start := by
  have numbered := Token.numbered_of_spans scanned
  rw [List.map_append, List.map_cons] at numbered
  rw [← map_token_lexeme (lineStarts source)]
  exact numbered.line_eq

/-- That is one more than there are line ends before the token. -/
theorem exists_before_span {taken rest : List Span} {next : Span}
    (scanned : Token.spans source = .ok (taken ++ next :: rest)) :
    ∃ before more, Token.ReadsBehind source.toList before (.token next.token more) ∧
      byteCount before = next.start ∧
      lineAt (lineStarts source) next.start = before.count '\n' + 1 := by
  have starts := Token.startIn_spansFrom 0 0 source.toList
  rw [← Token.spans, scanned] at starts
  obtain ⟨before, more, ⟨first, others, whole, reads⟩, offset⟩ := starts next (by simp)
  rw [Nat.zero_add] at offset
  refine ⟨before, more, ⟨first, others, whole, reads⟩, offset.symm, ?_⟩
  rw [offset, lineAt_lineStarts whole]

/-- Tokens on one line: the counter stays, and tells the line of each. -/
theorem lineAt_of_mem {taken inside rest : List Span}
    (scanned : Token.spans source = .ok (taken ++ (inside ++ rest)))
    (oneLine : ∀ span ∈ inside, span.token ≠ .newline) :
    ∀ span ∈ inside, lineAt (lineStarts source) span.start =
      lineBehind ((taken ++ inside).map Span.token) := by
  have numbered := Token.numbered_of_spans scanned
  rw [List.map_append, List.map_append, numbered_append_iff, numbered_append_iff,
    map_token_lexeme] at numbered
  have counter : lineBehind ((taken ++ inside).map Span.token) =
      lineBehind (taken.map Span.token) := by
    rw [List.map_append, lineBehind, List.foldl_append]
    exact foldl_nextLine_of_ne (List.forall_mem_map.mpr oneLine) _
  have oneLineLexemes : ∀ lexeme ∈ inside.map (Span.lexeme (lineStarts source)),
      lexeme.token ≠ .newline :=
    List.forall_mem_map.mpr oneLine
  intro span member
  rw [counter]
  exact (numbered_iff_of_ne oneLineLexemes).mp numbered.2.1 _ (List.mem_map_of_mem member)

/-! ### Refusals -/

/-- Whether a refusal of a text is what stands at its line, told by the counter and by bytes. -/
inductive Reported (source : String) : ParseError → Prop where
  /-- A place that cannot be read is reported on the line of its byte. -/
  | unreadable {misread : Misread} {before : List Char}
      (scanned : Token.spans source = .error misread)
      (reads : Token.ReadsBehind source.toList before (.unreadable misread.text))
      (offset : byteCount before = misread.start)
      (here : lineAt (lineStarts source) misread.start = before.count '\n' + 1) :
      Reported source (.unreadable (before.count '\n' + 1) misread.text)
  /-- A token that the grammar does not allow is reported on its own line, also if it is the
      end of a line. -/
  | unexpected {line : Nat} {expected : Expectation} {taken rest : List Span} {next : Span}
      {reader : Reader} (scanned : Token.spans source = .ok (taken ++ next :: rest))
      (reached : Reader.behind source taken = .ok reader)
      (refused : reader.step (next.lexeme (lineStarts source)) =
        .error (.unexpected line expected next.token))
      (counter : lineBehind (taken.map Span.token) = line)
      (here : lineAt (lineStarts source) next.start = line) :
      Reported source (.unexpected line expected next.token)
  /-- The end of the text has no line. -/
  | unexpectedEnd (expected : Expectation) : Reported source (.unexpectedEnd expected)
  /-- A malformed target is reported on the line of all its tokens, on which the counter still
      is when they have been taken. -/
  | invalidTarget {line : Nat} {fault : TargetError} {taken target rest : List Span}
      {reader : Reader} {draft : Draft}
      (scanned : Token.spans source = .ok (taken ++ (target ++ rest)))
      (reached : Reader.behind source taken = .ok reader)
      (among : reader.place.targetsOf? = some draft)
      (malformed : Malformed (target.map Span.token) fault)
      (counter : lineBehind ((taken ++ target).map Span.token) = line)
      (here : ∀ span ∈ target, lineAt (lineStarts source) span.start = line) :
      Reported source (.invalidTarget line fault)
  /-- An instruction that does not pass its check is reported on the line of its name. -/
  | invalidInstruction {line : Nat} {fault : InstructionError} {taken inside rest : List Span}
      {name : Span} {between reader : Reader} {draft : Draft}
      (scanned : Token.spans source = .ok (taken ++ name :: (inside ++ rest)))
      (begins : Reader.behind source taken = .ok between) (outside : between.place = .statement)
      (named : name.token = .word draft.name) (opensNone : opensBlock draft.name = false)
      (oneLine : ∀ span ∈ inside, span.token ≠ .newline)
      (reached : Reader.behind source (taken ++ name :: inside) = .ok reader)
      (among : reader.place.targetsOf? = some draft) (ends : EndsLine (rest.map Span.token))
      (invalid : draft.instruction.validate = .error fault)
      (counter : lineBehind (taken.map Span.token) = line)
      (here : lineAt (lineStarts source) name.start = line) :
      Reported source (.invalidInstruction line fault)

variable {taken rest : List Span} {reader : Reader}

/-- An invalid instruction is reported on the line of its name. -/
theorem reported_of_invalid {draft : Draft} {fault : InstructionError}
    (scanned : Token.spans source = .ok (taken ++ rest))
    (reached : Reader.behind source taken = .ok reader)
    (among : reader.place.targetsOf? = some draft) (ends : EndsLine (rest.map Span.token))
    (invalid : draft.instruction.validate = .error fault) :
    Reported source (.invalidInstruction draft.line fault) := by
  have reading := (Place.of_targetsOf? among).1
  obtain ⟨before, inside, between, split, begins, outside, opensNone, oneLine⟩ :=
    Reader.began_of_advance reached reading
  obtain ⟨before, others, rfl, rfl, behind⟩ := List.map_eq_append_iff.mp split
  obtain ⟨name, inside, rfl, same, rfl⟩ := List.map_eq_cons_iff.mp behind
  obtain ⟨named, here⟩ := Lexeme.mk.inj same
  rw [List.append_assoc, List.cons_append] at scanned
  refine .invalidInstruction scanned begins outside named opensNone ?_ reached among ends invalid
    ?_ here
  · intro span member
    exact oneLine _ (List.mem_map_of_mem member)
  · rw [lineBehind_eq_lineAt scanned, here]

/-- A malformed target is reported on the line of its last token. -/
theorem reported_of_malformed {next : Span} {fault : TargetError}
    (scanned : Token.spans source = .ok (taken ++ next :: rest))
    (reached : Reader.behind source taken = .ok reader)
    (malformed : Malformed (reader.place.begun ++ [next.token]) fault)
    (takes : reader.place.TakesTarget) :
    Reported source (.invalidTarget (lineAt (lineStarts source) next.start) fault) := by
  have goesOn : next.token ≠ .newline := malformed.ne_newline next.token (by simp)
  obtain ⟨before, target, among, draft, split, tokens, begins, atTarget⟩ :=
    Reader.BeganTarget.concat reached (Reader.beganTarget_of_advance reached) takes
      (next.lexeme (lineStarts source))
  have whole : (taken ++ [next]).map (Span.lexeme (lineStarts source)) = before ++ target := by
    rw [List.map_append]
    exact split
  obtain ⟨before, target, joined, rfl, rfl⟩ := List.map_eq_append_iff.mp whole
  rw [map_token_lexeme] at tokens
  have form : Malformed (target.map Span.token) fault := tokens ▸ malformed
  have placed : Token.spans source = .ok (before ++ (target ++ rest)) := by
    rw [scanned, List.append_cons, joined, List.append_assoc]
  -- The last token of the target has been taken, and it was no line end.
  have counter : lineBehind ((before ++ target).map Span.token) =
      lineAt (lineStarts source) next.start := by
    rw [← joined, List.map_append, lineBehind, List.foldl_append, ← lineBehind,
      lineBehind_eq_lineAt scanned]
    exact Token.nextLine_of_ne goesOn _
  have oneLine : ∀ span ∈ target, span.token ≠ .newline := by
    intro span member
    exact form.ne_newline span.token (List.mem_map_of_mem member)
  refine .invalidTarget placed begins atTarget form counter ?_
  intro span member
  rw [lineAt_of_mem placed oneLine span member, counter]

/-- Whatever is refused at a token is reported on its line. -/
theorem reported_of_step {next : Span} {fault : ParseError}
    (scanned : Token.spans source = .ok (taken ++ next :: rest))
    (reached : Reader.behind source taken = .ok reader)
    (refused : reader.step (next.lexeme (lineStarts source)) = .error fault) :
    Reported source fault := by
  cases Reader.refuses_step refused with
  | unexpected expected =>
    exact .unexpected scanned reached refused (lineBehind_eq_lineAt scanned) rfl
  | target malformed takes => exact reported_of_malformed scanned reached malformed takes
  | instruction among ends invalid =>
    exact reported_of_invalid scanned reached among (ends _) invalid

/-- Whatever is refused is reported on its line. -/
theorem Circuit.reported_of_parse_error {fault : ParseError}
    (refused : parse source = .error fault) : Reported source fault := by
  have lines := Token.scanText_eq_located source
  cases scanned : Token.spans source with
  | error misread =>
    have starts := Token.startIn_spansFrom 0 0 source.toList
    rw [← Token.spans, scanned] at starts
    obtain ⟨before, ⟨first, rest, whole, reads⟩, offset⟩ := starts
    rw [Nat.zero_add] at offset
    have here : lineAt (lineStarts source) misread.start = before.count '\n' + 1 := by
      rw [offset, lineAt_lineStarts whole]
    rw [parse, lines, scanned, Token.located, here] at refused
    cases refused
    exact .unreadable scanned ⟨first, rest, whole, reads⟩ offset.symm here
  | ok spans =>
    rw [parse, lines, scanned, Token.located] at refused
    simp only [ofLexemes] at refused
    split at refused
    · rename_i advanced
      cases refused
      obtain ⟨taken, next, rest, reached, split, reaches, stepped⟩ :=
        Reader.exists_of_advance_error advanced
      obtain ⟨taken, others, rfl, rfl, behind⟩ := List.map_eq_append_iff.mp split
      obtain ⟨next, rest, rfl, rfl, rfl⟩ := List.map_eq_cons_iff.mp behind
      exact reported_of_step scanned reaches stepped
    · rename_i reached advanced
      obtain ⟨expected, rfl⟩ | ⟨draft, cause, among, invalid, rfl⟩ :=
        Reader.finish_error_cases refused
      · exact .unexpectedEnd expected
      · rw [← List.append_nil spans] at scanned
        exact reported_of_invalid scanned advanced among trivial invalid

/-- Lines are told right. A text is scanned as a whole as it is line by line; at every point of
    a run, the counter, the byte of the next token and the line ends before it tell the same
    line; and every refusal is reported on the line of what it is about. -/
theorem Circuit.parse_reports_lines (source : String) :
    Token.scanText source = Token.located (lineStarts source) (Token.spans source) ∧
    (∀ taken next rest, Token.spans source = .ok (taken ++ next :: rest) →
      lineBehind (taken.map Span.token) = lineAt (lineStarts source) next.start ∧
      ∃ before more, Token.ReadsBehind source.toList before (.token next.token more) ∧
        byteCount before = next.start ∧
        lineAt (lineStarts source) next.start = before.count '\n' + 1) ∧
    (∀ fault, parse source = .error fault → Reported source fault) := by
  refine ⟨Token.scanText_eq_located source, ?_, fun _ => reported_of_parse_error⟩
  intro taken next rest scanned
  exact ⟨lineBehind_eq_lineAt scanned, exists_before_span scanned⟩

/-- In a block of a block and behind a comment of more bytes than characters, a record that is
    not counted back is reported on its line; so is a line end where a comma should stand. -/
theorem Circuit.parse_reports_lines_nested :
    (∃ fault, Reported
        "REPEAT 2 \x7b # é\n  REPEAT 3 \x7b\n    M 0 rec[0]\n  \x7d\n\x7d\n" fault ∧
      fault.message = "Invalid target at line 3: measurement record lookback must be negative") ∧
    ∃ fault, Reported "TICK\nH(1\n, 2) 0\n" fault ∧
      fault.message = "Unexpected token at line 2: expected ,, found end of line" := by
  have tells {source text : String}
      (worded : ((parse source).mapError ParseError.message).map Circuit.text = .error text) :
      ∃ fault, Reported source fault ∧ fault.message = text := by
    cases reads : parse source with
    | error fault =>
      rw [reads] at worded
      exact ⟨fault, (parse_reports_lines source).2.2 fault reads, Except.error.inj worded⟩
    | ok circuit =>
      rw [reads] at worded
      contradiction
  constructor
  · apply tells
    decide +kernel
  · apply tells
    decide +kernel

end StabilizerLayers
