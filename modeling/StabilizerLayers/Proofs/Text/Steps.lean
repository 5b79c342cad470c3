import StabilizerLayers.Proofs.Text.Places

/-!
# What one token may do

What a reader may do with a token is said once: `Moves` for tokens that are taken and `Refuses`
for tokens that are refused. A run then knows where the instruction and the target that it is
in the middle of began, because the tokens since then have been taken one by one.
-/

namespace StabilizerLayers

open Grammar (EndsLine)

/-! ### Places inside targets -/

/-- The tokens of the target that is being read at a place, as far as they have been taken. -/
def Place.begun : Place → List Token
  | .inverted _ => [.exclamation]
  | .recordOpen _ => [.word "rec"]
  | .recordIndex _ => [.word "rec", .leftBracket]
  | .negativeRecordIndex _ => [.word "rec", .leftBracket, .minus]
  | .recordClose _ negative index =>
    .word "rec" :: .leftBracket :: (Grammar.optional .minus negative ++ [.integer index])
  | .sweepOpen _ => [.word "sweep"]
  | .sweepIndex _ => [.word "sweep", .leftBracket]
  | .sweepClose _ index => [.word "sweep", .leftBracket, .integer index]
  | _ => []

/-- Whether a token at a place belongs to a target: to the one that has begun or, if none has,
    to a new one. -/
def Place.TakesTarget (place : Place) : Prop :=
  place.begun = [] → ∃ draft, place.targetsOf? = some draft

/-- Inside a target the next token belongs to it. -/
theorem Place.takesTarget_of_ne {place : Place} (inside : place.begun ≠ []) :
    place.TakesTarget := by
  intro fresh
  contradiction

/-- Outside of instructions no target has begun. -/
theorem Place.begun_of_draft? {place : Place} (outside : place.draft? = none) :
    place.begun = [] := by
  cases place with
  | statement | blockCount | blockOpen repetitions => rfl
  | _ => contradiction

/-- Where a target may begin an instruction is being read, and no target has begun. -/
theorem Place.of_targetsOf? {place : Place} {draft : Draft}
    (among : place.targetsOf? = some draft) : place.draft? = some draft ∧ place.begun = [] := by
  cases place with
  | name other | target other =>
    cases among
    exact ⟨rfl, rfl⟩
  | _ => contradiction

/-- Whether tokens have the form of a target that is refused. -/
inductive Malformed : List Token → TargetError → Prop where
  | qubit (inverted : Bool) {index : UInt64} {fault : TargetError}
      (refused : readQubit index = .error fault) :
      Malformed (Grammar.optional .exclamation inverted ++ [.integer index]) fault
  | pauli (inverted : Bool) {word : String} {fault : TargetError}
      (noBit : inverted = false → word ≠ "rec" ∧ word ≠ "sweep")
      (refused : readPauli word inverted = .error fault) :
      Malformed (Grammar.optional .exclamation inverted ++ [.word word]) fault
  | record (negative : Bool) {index : UInt64} {fault : TargetError}
      (refused : readRecord negative index = .error fault) :
      Malformed (.word "rec" :: .leftBracket ::
        (Grammar.optional .minus negative ++ [.integer index, .rightBracket])) fault
  | sweep {index : UInt64} {fault : TargetError} (refused : readSweep index = .error fault) :
      Malformed [.word "sweep", .leftBracket, .integer index, .rightBracket] fault

/-- No target goes on behind the end of a line. -/
theorem Malformed.ne_newline {tokens : List Token} {fault : TargetError}
    (malformed : Malformed tokens fault) : ∀ token ∈ tokens, token ≠ .newline := by
  rintro _ member rfl
  cases malformed with
  | qubit inverted => cases inverted <;> simp [Grammar.optional] at member
  | pauli inverted => cases inverted <;> simp [Grammar.optional] at member
  | record negative => cases negative <;> simp [Grammar.optional] at member
  | sweep => simp at member

/-- Where a token that is taken may lead: out of any instruction, behind the name of one, or
    further on in one, on the same line and perhaps further on in a target. -/
inductive Moves : Place → Lexeme → Place → Prop where
  | leaves {place next : Place} {lexeme : Lexeme} (outside : next.draft? = none) :
      Moves place lexeme next
  | names {word : String} (opensNone : opensBlock word = false) (line : Nat) :
      Moves .statement ⟨.word word, line⟩ (.name ⟨line, word, [], []⟩)
  | stays {place next : Place} {lexeme : Lexeme} {earlier later : Draft}
      (before : place.draft? = some earlier) (after : next.draft? = some later)
      (line : later.line = earlier.line) (name : later.name = earlier.name)
      (goesOn : lexeme.token ≠ .newline)
      (target : next.begun = [] ∨
        next.begun = place.begun ++ [lexeme.token] ∧ place.TakesTarget) :
      Moves place lexeme next

/-- Why a token may be refused: the grammar wants another one, a malformed target ends with it,
    or an instruction that ends before it does not pass its check. -/
inductive Refuses (place : Place) (lexeme : Lexeme) : ParseError → Prop where
  | unexpected (expected : Expectation) :
      Refuses place lexeme (.unexpected lexeme.line expected lexeme.token)
  | target {fault : TargetError} (malformed : Malformed (place.begun ++ [lexeme.token]) fault)
      (takes : place.TakesTarget) :
      Refuses place lexeme (.invalidTarget lexeme.line fault)
  | instruction {draft : Draft} {fault : InstructionError}
      (among : place.targetsOf? = some draft)
      (ends : ∀ behind, EndsLine (lexeme.token :: behind))
      (invalid : draft.instruction.validate = .error fault) :
      Refuses place lexeme (.invalidInstruction draft.line fault)

namespace Reader

variable {reader next : Reader} {draft : Draft} {lexeme : Lexeme} {fault : ParseError}

/-! ### Tokens that are taken -/

/-- At the start of a statement a token leads behind a name or outside of instructions. -/
theorem moves_stepStatement (between : reader.place = .statement)
    (stepped : reader.stepStatement lexeme = .ok next) : Moves reader.place lexeme next.place := by
  obtain ⟨token, line⟩ := lexeme
  rw [between]
  cases token with
  | newline =>
    cases stepped
    exact .leaves rfl
  | rightBrace =>
    simp only [stepStatement] at stepped
    split at stepped
    · cases stepped
      exact .leaves rfl
    · contradiction
  | word word =>
    simp only [stepStatement] at stepped
    split at stepped
    · cases stepped
      exact .leaves rfl
    · rename_i opensNone
      cases stepped
      exact .names (Bool.eq_false_iff.mpr opensNone) line
  | _ => contradiction

/-- The last token of a target leads back among the targets. -/
theorem moves_addTarget (target? : Except TargetError Target)
    (reading : reader.place.draft? = some draft) (goesOn : lexeme.token ≠ .newline)
    (added : reader.addTarget draft lexeme.line target? = .ok next) :
    Moves reader.place lexeme next.place := by
  cases target? with
  | error fault => contradiction
  | ok target =>
    cases added
    exact .stays reading rfl rfl rfl goesOn (.inl rfl)

/-- A number leads on in its instruction. -/
theorem moves_stepNumber (negative : Bool) (reading : reader.place.draft? = some draft)
    (stepped : reader.stepNumber draft negative lexeme = .ok next) :
    Moves reader.place lexeme next.place := by
  obtain ⟨token, line⟩ := lexeme
  cases token with
  | integer value | decimal value =>
    cases stepped
    exact .stays reading rfl rfl rfl Token.noConfusion (.inl rfl)
  | _ => contradiction

/-- An argument leads on in its instruction. -/
theorem moves_stepArgument (reading : reader.place.draft? = some draft)
    (stepped : reader.stepArgument draft lexeme = .ok next) :
    Moves reader.place lexeme next.place := by
  obtain ⟨token, line⟩ := lexeme
  cases token with
  | minus =>
    cases stepped
    exact .stays reading rfl rfl rfl Token.noConfusion (.inl rfl)
  | _ => exact moves_stepNumber false reading stepped

/-- At a target a token leads on in its instruction or out of it. -/
theorem moves_stepTarget (among : reader.place.targetsOf? = some draft)
    (stepped : reader.stepTarget draft lexeme = .ok next) :
    Moves reader.place lexeme next.place := by
  obtain ⟨reading, fresh⟩ := Place.of_targetsOf? among
  obtain ⟨token, line⟩ := lexeme
  -- A token that does not complete a target begins one.
  have begins {place : Place} (same : place.draft? = some draft) (goesOn : token ≠ .newline)
      (begun : place.begun = [token]) : Moves reader.place ⟨token, line⟩ place := by
    refine .stays reading same rfl rfl goesOn (.inr ⟨?_, fun _ => ⟨draft, among⟩⟩)
    rw [fresh, begun, List.nil_append]
  cases token with
  | newline =>
    rw [show next.place = .statement from place_of_endInstruction stepped]
    exact .leaves rfl
  | rightBrace =>
    simp only [stepTarget] at stepped
    split at stepped
    · contradiction
    · simp only [stepStatement] at stepped
      split at stepped
      · cases stepped
        exact .leaves rfl
      · contradiction
  | star => exact moves_addTarget (.ok .combiner) reading Token.noConfusion stepped
  | integer index =>
    exact moves_addTarget ((readQubit index).map (.qubit · false)) reading Token.noConfusion stepped
  | exclamation =>
    cases stepped
    exact begins rfl Token.noConfusion rfl
  | word word =>
    by_cases record : word = "rec"
    · subst record
      cases stepped
      exact begins rfl Token.noConfusion rfl
    by_cases sweep : word = "sweep"
    · subst sweep
      cases stepped
      exact begins rfl Token.noConfusion rfl
    rw [stepTarget_word record sweep] at stepped
    exact moves_addTarget _ reading Token.noConfusion stepped
  | _ => contradiction

/-- What a token does that is taken. -/
theorem moves_step (stepped : reader.step lexeme = .ok next) :
    Moves reader.place lexeme next.place := by
  obtain ⟨place, enclosing, written⟩ := reader
  obtain ⟨token, line⟩ := lexeme
  -- Between targets nothing has begun; inside one the token is put behind those that were taken.
  cases place with
  | statement => exact moves_stepStatement rfl stepped
  | blockCount =>
    cases token with
    | integer repetitions =>
      cases stepped
      exact .leaves rfl
    | _ => contradiction
  | blockOpen repetitions =>
    cases token with
    | leftBrace =>
      cases stepped
      exact .leaves rfl
    | _ => contradiction
  | name draft =>
    by_cases opens : token = .leftParenthesis
    · subst opens
      cases stepped
      exact .stays rfl rfl rfl rfl Token.noConfusion (.inl rfl)
    · rw [step_target rfl opens] at stepped
      exact moves_stepTarget rfl stepped
  | firstArgument draft =>
    by_cases closes : token = .rightParenthesis
    · subst closes
      cases stepped
      exact .stays rfl rfl rfl rfl Token.noConfusion (.inl rfl)
    · rw [step_argument rfl closes] at stepped
      exact moves_stepArgument rfl stepped
  | argument draft => exact moves_stepArgument rfl stepped
  | negativeArgument draft => exact moves_stepNumber true rfl stepped
  | separator draft =>
    cases token with
    | rightParenthesis | comma =>
      cases stepped
      exact .stays rfl rfl rfl rfl Token.noConfusion (.inl rfl)
    | _ => contradiction
  | target draft => exact moves_stepTarget rfl stepped
  | inverted draft =>
    cases token with
    | integer index | word word => exact moves_addTarget _ rfl Token.noConfusion stepped
    | _ => contradiction
  | recordIndex draft =>
    cases token with
    | minus | integer index =>
      cases stepped
      exact .stays rfl rfl rfl rfl Token.noConfusion
        (.inr ⟨rfl, Place.takesTarget_of_ne (List.cons_ne_nil _ _)⟩)
    | _ => contradiction
  | recordOpen draft | sweepOpen draft =>
    cases token with
    | leftBracket =>
      cases stepped
      exact .stays rfl rfl rfl rfl Token.noConfusion
        (.inr ⟨rfl, Place.takesTarget_of_ne (List.cons_ne_nil _ _)⟩)
    | _ => contradiction
  | negativeRecordIndex draft | sweepIndex draft =>
    cases token with
    | integer index =>
      cases stepped
      exact .stays rfl rfl rfl rfl Token.noConfusion
        (.inr ⟨rfl, Place.takesTarget_of_ne (List.cons_ne_nil _ _)⟩)
    | _ => contradiction
  | recordClose draft negative index | sweepClose draft index =>
    cases token with
    | rightBracket => exact moves_addTarget _ rfl Token.noConfusion stepped
    | _ => contradiction

/-! ### Tokens that are refused -/

/-- A token where another one is expected is refused. -/
theorem refuses_of_refuse {place : Place} {expected : Expectation}
    (refused : refuse lexeme expected = .error fault) : Refuses place lexeme fault := by
  cases refused
  exact .unexpected expected

/-- What ends an instruction is refused if the instruction is invalid. -/
theorem refuses_endInstruction (among : reader.place.targetsOf? = some draft)
    (ends : ∀ behind, EndsLine (lexeme.token :: behind))
    (refused : reader.endInstruction draft = .error fault) :
    Refuses reader.place lexeme fault := by
  cases valid : draft.instruction.validate with
  | ok _ =>
    rw [endInstruction_valid reader valid] at refused
    contradiction
  | error cause =>
    rw [endInstruction_invalid reader valid] at refused
    cases refused
    exact .instruction among ends valid

/-- What ends a target is refused if the target is malformed. -/
theorem refuses_addTarget (draft : Draft) {target? : Except TargetError Target}
    (malformed : ∀ cause, target? = .error cause →
      Malformed (reader.place.begun ++ [lexeme.token]) cause)
    (takes : reader.place.TakesTarget)
    (refused : reader.addTarget draft lexeme.line target? = .error fault) :
    Refuses reader.place lexeme fault := by
  cases target? with
  | ok target => contradiction
  | error cause =>
    cases refused
    exact .target (malformed cause rfl) takes

/-- At the start of a statement only an unexpected token is refused. -/
theorem refuses_stepStatement {place : Place}
    (refused : reader.stepStatement lexeme = .error fault) : Refuses place lexeme fault := by
  obtain ⟨token, line⟩ := lexeme
  cases token with
  | newline => contradiction
  | word word =>
    simp only [stepStatement] at refused
    split at refused
    · contradiction
    · contradiction
  | rightBrace =>
    simp only [stepStatement] at refused
    split at refused
    · contradiction
    · exact refuses_of_refuse refused
  | _ => exact refuses_of_refuse refused

/-- Where a number is wanted, only an unexpected token is refused. -/
theorem refuses_stepNumber (draft : Draft) (negative : Bool)
    (refused : reader.stepNumber draft negative lexeme = .error fault) :
    Refuses reader.place lexeme fault := by
  obtain ⟨token, line⟩ := lexeme
  cases token with
  | integer value | decimal value => contradiction
  | _ => exact refuses_of_refuse refused

/-- Where an argument is wanted, only an unexpected token is refused. -/
theorem refuses_stepArgument (refused : reader.stepArgument draft lexeme = .error fault) :
    Refuses reader.place lexeme fault := by
  obtain ⟨token, line⟩ := lexeme
  cases token with
  | minus => contradiction
  | _ => exact refuses_stepNumber draft false refused

/-- Where a target may begin, a token is refused for any of the reasons. -/
theorem refuses_stepTarget (among : reader.place.targetsOf? = some draft)
    (refused : reader.stepTarget draft lexeme = .error fault) :
    Refuses reader.place lexeme fault := by
  obtain ⟨-, fresh⟩ := Place.of_targetsOf? among
  obtain ⟨token, line⟩ := lexeme
  cases token with
  | newline => exact refuses_endInstruction among (fun _ => trivial) refused
  | rightBrace =>
    simp only [stepTarget] at refused
    split at refused
    · rename_i cause endsHere
      cases refused
      exact refuses_endInstruction among (fun _ => trivial) endsHere
    · exact refuses_stepStatement refused
  | star => contradiction
  | exclamation => contradiction
  | integer index =>
    apply refuses_addTarget draft _ (fun _ => ⟨draft, among⟩) refused
    rw [fresh]
    intro cause reads
    exact .qubit false (eq_error_of_map_eq_error reads)
  | word word =>
    by_cases record : word = "rec"
    · subst record
      contradiction
    by_cases sweep : word = "sweep"
    · subst sweep
      contradiction
    rw [stepTarget_word record sweep] at refused
    apply refuses_addTarget draft _ (fun _ => ⟨draft, among⟩) refused
    rw [fresh]
    intro cause reads
    exact .pauli false (fun _ => ⟨record, sweep⟩) reads
  | _ => exact refuses_of_refuse refused

/-- What a token does that is refused. -/
theorem refuses_step (refused : reader.step lexeme = .error fault) :
    Refuses reader.place lexeme fault := by
  obtain ⟨place, enclosing, written⟩ := reader
  obtain ⟨token, line⟩ := lexeme
  cases place with
  | statement => exact refuses_stepStatement refused
  | name draft =>
    by_cases opens : token = .leftParenthesis
    · subst opens
      contradiction
    · rw [step_target rfl opens] at refused
      exact refuses_stepTarget rfl refused
  | firstArgument draft =>
    by_cases closes : token = .rightParenthesis
    · subst closes
      contradiction
    · rw [step_argument rfl closes] at refused
      exact refuses_stepArgument refused
  | argument draft => exact refuses_stepArgument refused
  | negativeArgument draft => exact refuses_stepNumber draft true refused
  | target draft => exact refuses_stepTarget rfl refused
  | inverted draft =>
    have takes : (Place.inverted draft).TakesTarget :=
      Place.takesTarget_of_ne (List.cons_ne_nil _ _)
    cases token with
    | integer index =>
      apply refuses_addTarget draft _ takes refused
      intro cause reads
      exact .qubit true (eq_error_of_map_eq_error reads)
    | word word =>
      apply refuses_addTarget draft _ takes refused
      intro cause reads
      exact .pauli true Bool.noConfusion reads
    | _ => exact refuses_of_refuse refused
  | recordClose draft negative index =>
    have takes : (Place.recordClose draft negative index).TakesTarget :=
      Place.takesTarget_of_ne (List.cons_ne_nil _ _)
    cases token with
    | rightBracket =>
      apply refuses_addTarget draft _ takes refused
      intro cause reads
      cases negative with
      | false => exact .record false reads
      | true => exact .record true reads
    | _ => exact refuses_of_refuse refused
  | sweepClose draft index =>
    have takes : (Place.sweepClose draft index).TakesTarget :=
      Place.takesTarget_of_ne (List.cons_ne_nil _ _)
    cases token with
    | rightBracket =>
      apply refuses_addTarget draft _ takes refused
      intro cause reads
      exact .sweep reads
    | _ => exact refuses_of_refuse refused
  -- At the other places no target and no instruction ends, so only the grammar refuses.
  | blockCount | negativeRecordIndex draft | sweepIndex draft =>
    cases token with
    | integer index => contradiction
    | _ => exact refuses_of_refuse refused
  | blockOpen repetitions =>
    cases token with
    | leftBrace => contradiction
    | _ => exact refuses_of_refuse refused
  | separator draft =>
    cases token with
    | rightParenthesis | comma => contradiction
    | _ => exact refuses_of_refuse refused
  | recordOpen draft | sweepOpen draft =>
    cases token with
    | leftBracket => contradiction
    | _ => exact refuses_of_refuse refused
  | recordIndex draft =>
    cases token with
    | minus | integer index => contradiction
    | _ => exact refuses_of_refuse refused

/-! ### Runs -/

/-- A run that is refused goes on to the token that is refused. -/
theorem exists_of_advance_error {lexemes : List Lexeme}
    (refused : reader.advance lexemes = .error fault) :
    ∃ taken next rest reached, lexemes = taken ++ next :: rest ∧
      reader.advance taken = .ok reached ∧ reached.step next = .error fault := by
  induction lexemes generalizing reader with
  | nil => contradiction
  | cons lexeme rest inductionHypothesis =>
    rw [advance] at refused
    split at refused
    · rename_i stepped
      cases refused
      exact ⟨[], lexeme, rest, reader, rfl, rfl, stepped⟩
    · rename_i middle stepped
      obtain ⟨taken, next, others, reached, rfl, advanced, final⟩ := inductionHypothesis refused
      refine ⟨lexeme :: taken, next, others, reached, rfl, ?_, final⟩
      rw [advance, stepped]
      exact advanced

/-- A run that takes one token more. -/
theorem exists_of_advance_concat {taken : List Lexeme}
    (advanced : reader.advance (taken ++ [lexeme]) = .ok next) :
    ∃ reached, reader.advance taken = .ok reached ∧ reached.step lexeme = .ok next := by
  cases before : reader.advance taken with
  | error fault =>
    have refused := toOption_advance_append reader taken [lexeme]
    rw [advanced, before] at refused
    contradiction
  | ok reached =>
    rw [advance_append_of_ok before, advance] at advanced
    split at advanced
    · contradiction
    · rename_i stepped
      cases advanced
      exact ⟨reached, rfl, stepped⟩

/-- Whether an instruction began with a name between statements, and the line has not ended
    since. -/
def Began (taken : List Lexeme) (name : String) (line : Nat) : Prop :=
  ∃ before inside between, taken = before ++ ⟨.word name, line⟩ :: inside ∧
    start.advance before = .ok between ∧ between.place = .statement ∧
    opensBlock name = false ∧ ∀ lexeme ∈ inside, lexeme.token ≠ .newline

/-- Whether these tokens were the last ones, and began where a target may begin. -/
def BeganTarget (taken : List Lexeme) (tokens : List Token) : Prop :=
  ∃ before target among draft, taken = before ++ target ∧ target.map Lexeme.token = tokens ∧
    start.advance before = .ok among ∧ among.place.targetsOf? = some draft

/-- Whatever instruction is being read, it began with its name. -/
theorem began_of_advance {taken : List Lexeme} (advanced : start.advance taken = .ok reader)
    (reading : reader.place.draft? = some draft) : Began taken draft.name draft.line := by
  induction taken using List.reverseRecOn generalizing reader draft with
  | nil =>
    cases advanced
    cases reading
  | append_singleton taken lexeme inductionHypothesis =>
    obtain ⟨reached, reaches, stepped⟩ := exists_of_advance_concat advanced
    have moved := moves_step stepped
    obtain ⟨place, enclosing, written⟩ := reached
    obtain ⟨nextPlace, nextEnclosing, nextWritten⟩ := reader
    cases moved with
    | leaves outside => cases outside.symm.trans reading
    | names opensNone line =>
      cases reading
      exact ⟨taken, [], _, rfl, reaches, rfl, opensNone, List.forall_mem_nil _⟩
    | stays before after line name goesOn _ =>
      obtain rfl := Option.some.inj (after.symm.trans reading)
      obtain ⟨earlier, inside, between, rfl, begins, atStatement, opensNone, oneLine⟩ :=
        inductionHypothesis reaches before
      rw [line, name]
      refine ⟨earlier, inside ++ [lexeme], between, ?_, begins, atStatement, opensNone, ?_⟩
      · rw [List.append_assoc, List.cons_append]
      · exact List.forall_mem_append.mpr ⟨oneLine, List.forall_mem_singleton.mpr goesOn⟩

/-- One token more of a target. -/
theorem BeganTarget.concat {taken : List Lexeme} (advanced : start.advance taken = .ok reader)
    (begun : reader.place.begun ≠ [] → BeganTarget taken reader.place.begun)
    (takes : reader.place.TakesTarget) (lexeme : Lexeme) :
    BeganTarget (taken ++ [lexeme]) (reader.place.begun ++ [lexeme.token]) := by
  by_cases fresh : reader.place.begun = []
  · obtain ⟨draft, among⟩ := takes fresh
    refine ⟨taken, [lexeme], reader, draft, rfl, ?_, advanced, among⟩
    rw [fresh]
    rfl
  · obtain ⟨before, target, among, draft, rfl, tokens, begins, atTarget⟩ := begun fresh
    refine ⟨before, target ++ [lexeme], among, draft, ?_, ?_, begins, atTarget⟩
    · rw [List.append_assoc]
    · rw [List.map_append, tokens]
      rfl

/-- Whatever target is being read, it began where a target may begin. -/
theorem beganTarget_of_advance {taken : List Lexeme} (advanced : start.advance taken = .ok reader)
    (inside : reader.place.begun ≠ []) : BeganTarget taken reader.place.begun := by
  induction taken using List.reverseRecOn generalizing reader with
  | nil =>
    cases advanced
    contradiction
  | append_singleton taken lexeme inductionHypothesis =>
    obtain ⟨reached, reaches, stepped⟩ := exists_of_advance_concat advanced
    have moved := moves_step stepped
    have earlier := inductionHypothesis reaches
    have more := BeganTarget.concat reaches earlier
    obtain ⟨place, enclosing, written⟩ := reached
    obtain ⟨nextPlace, nextEnclosing, nextWritten⟩ := reader
    cases moved with
    | leaves outside => exact absurd (Place.begun_of_draft? outside) inside
    | names opensNone line => contradiction
    | stays _ _ _ _ _ target =>
      obtain fresh | ⟨begun, takes⟩ := target
      · contradiction
      · change BeganTarget _ nextPlace.begun
        rw [begun]
        exact more takes lexeme

/-- The end of the text is refused as such, or for an instruction that ends with it. -/
theorem finish_error_cases (refused : reader.finish = .error fault) :
    (∃ expected, fault = .unexpectedEnd expected) ∨
      ∃ draft cause, reader.place.targetsOf? = some draft ∧
        draft.instruction.validate = .error cause ∧
        fault = .invalidInstruction draft.line cause := by
  have ended {reader : Reader} (refused : reader.closed = .error fault) :
      ∃ expected, fault = .unexpectedEnd expected := by
    rw [closed] at refused
    split at refused
    · contradiction
    · cases refused
      exact ⟨_, rfl⟩
  cases among : reader.place.targetsOf? with
  | some draft =>
    rw [finish_of_targetsOf? among] at refused
    cases valid : draft.instruction.validate with
    | error cause =>
      rw [endInstruction_invalid reader valid] at refused
      cases refused
      exact .inr ⟨draft, cause, rfl, valid, rfl⟩
    | ok _ =>
      rw [endInstruction_valid reader valid] at refused
      exact .inl (ended refused)
  | none =>
    obtain ⟨place, enclosing, written⟩ := reader
    cases place with
    | statement => exact .inl (ended refused)
    | name draft | target draft => contradiction
    | _ =>
      cases refused
      exact .inl ⟨_, rfl⟩

end Reader

end StabilizerLayers
