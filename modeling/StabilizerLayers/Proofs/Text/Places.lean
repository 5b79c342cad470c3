import StabilizerLayers.Proofs.Text.Grammar
import StabilizerLayers.Proofs.Text.Rereading

/-!
# Places of the reader and the grammar

Each place of the reader is given a meaning: which tokens may stand behind it, told by the
grammar alone, and which circuit they lead to together with what has been written and the
blocks that are open. Inside a phrase, the tokens of it that have been taken are put back
and the phrase is derived as a whole.

The first token behind a place tells how a derivation goes on. For a token that ends a
target or a number, the reader and the grammar are compared on the phrase as a whole: it
is read exactly if it is derived.
-/

namespace StabilizerLayers

open Grammar (Block Line Number PauliWord TargetForm EndsLine EndsBlock)

/-! ### Indices and words -/

/-- The axis of a character is the one whose letter it is, in upper or in lower case. -/
theorem Basis.ofChar?_eq_some_iff {character : Char} {basis : Basis} :
    ofChar? character = some basis ↔ character.toUpper = basis.letter := by
  constructor
  · intro reads
    rw [ofChar?] at reads
    split at reads
    all_goals cases reads
    all_goals assumption
  · intro upper
    rw [ofChar?, upper]
    cases basis <;> rfl

/-- An index fits as a 32-bit number exactly if it is that number in 64 bits. -/
theorem index32?_eq_some_iff {index : UInt64} {small : UInt32} :
    index32? index = some small ↔ index = small.toUInt64 := by
  constructor
  · intro fits
    apply UInt64.toNat_inj.mp
    rw [UInt32.toNat_toUInt64, toNat_of_index32? fits]
  · rintro rfl
    exact Reader.index32?_toUInt64 small

/-- A qubit is read from an index exactly if the index is its number. -/
theorem readQubit_eq_ok_iff {index : UInt64} {id : Qubit} :
    readQubit index = .ok id ↔ index = id.toUInt64 := by
  rw [← index32?_eq_some_iff, readQubit]
  cases index32? index with
  | none => simp
  | some small => simp

/-- A sweep bit is read from an index exactly if the index is its number. -/
theorem readSweep_eq_ok_iff {index : UInt64} {target : Target} :
    readSweep index = .ok target ↔ ∃ bit : UInt32, index = bit.toUInt64 ∧ .sweep bit = target := by
  simp only [← index32?_eq_some_iff, readSweep]
  cases index32? index with
  | none => simp
  | some small => simp

/-- A record is read from an index with a minus sign that counts at least one back. -/
theorem readRecord_eq_ok_iff {negative : Bool} {index : UInt64} {target : Target} :
    readRecord negative index = .ok target ↔ negative = true ∧
      ∃ lookback : UInt32, 1 ≤ lookback.toNat ∧ index = lookback.toUInt64 ∧
        .record lookback = target := by
  constructor
  · intro reads
    have back := countsBack_of_readRecord reads
    rw [readRecord] at reads
    split at reads
    · contradiction
    · rename_i counted
      rw [Bool.not_eq_true, Bool.or_eq_false_iff, Bool.not_eq_false'] at counted
      split at reads
      · rename_i lookback fits
        cases reads
        exact ⟨counted.1, lookback, back, index32?_eq_some_iff.mp fits, rfl⟩
      · contradiction
  · rintro ⟨rfl, lookback, back, rfl, rfl⟩
    exact Reader.readRecord_toUInt64 back

/-- The digits of a word have the same value in 64 bits and in 32. -/
theorem readQubit_ofNat_eq_ok_iff {value : Nat} (small : value < UInt64.size) {id : Qubit} :
    readQubit (UInt64.ofNat value) = .ok id ↔ value = id.toNat := by
  rw [readQubit_eq_ok_iff, ← UInt64.toNat_inj, UInt64.toNat_ofNat_of_lt' small,
    UInt32.toNat_toUInt64]

/-- A Pauli operator is read from a word exactly if the grammar has such a word for it. -/
theorem readPauli_eq_ok_iff {text : String} {inverted : Bool} {target : Target} :
    readPauli text inverted = .ok target ↔
      ∃ word : PauliWord, text = word.text ∧ .pauli word.basis word.id inverted = target := by
  constructor
  · intro reads
    unfold readPauli at reads
    split at reads
    · rename_i letter digits spelled
      split at reads
      · rename_i basis axis
        split at reads
        · contradiction
        · rename_i decimal
          rw [Bool.not_eq_true, Bool.or_eq_false_iff, Bool.not_eq_false', List.all_eq_true,
            List.isEmpty_eq_false_iff] at decimal
          simp only at reads
          split at reads
          · rename_i small
            obtain ⟨id, fits, rfl⟩ := exists_of_map_eq_ok reads
            refine ⟨⟨letter, digits, basis, id, Basis.ofChar?_eq_some_iff.mp axis, decimal.1,
              decimal.2, (readQubit_ofNat_eq_ok_iff small).mp fits⟩, ?_, rfl⟩
            rw [PauliWord.text, ← spelled, String.ofList_toList]
          · contradiction
      · contradiction
    · contradiction
  · rintro ⟨word, rfl, rfl⟩
    have axis := Basis.ofChar?_eq_some_iff.mpr word.axis
    have decimal : word.digits.all Char.isDigit = true := List.all_eq_true.mpr word.all_isDigit
    have some : word.digits.isEmpty = false := List.isEmpty_eq_false_iff.mpr word.digits_ne_nil
    -- The digits of a 32-bit number also fit into 64 bits, whatever zeros stand in front.
    have small : Nat.ofDigitChars 10 word.digits 0 < UInt64.size := by
      rw [word.value]
      exact Nat.lt_trans word.id.toNat_lt (by decide)
    have index := (readQubit_ofNat_eq_ok_iff small).mpr word.value
    simp only [readPauli, PauliWord.text, String.toList_ofList, axis, decimal, some, small, index]
    rfl

/-! ### What has been taken -/

/-- Operations written one after another stand behind the circuit. -/
theorem Builder.circuit_foldl_push (operations : List Operation) (written : Builder) :
    (operations.foldl Builder.push written).circuit = written.circuit ++ operations := by
  induction operations generalizing written with
  | nil => exact (List.append_nil _).symm
  | cons operation rest inductionHypothesis =>
    rw [List.foldl_cons, inductionHypothesis, circuit_push, List.append_assoc,
      List.singleton_append]

namespace Draft

/-- Targets taken one by one stand behind those taken before. -/
theorem instruction_foldl_addTarget (targets : List Target) (draft : Draft) :
    (targets.foldl addTarget draft).instruction =
      { draft.instruction with targets := draft.targets.reverse ++ targets } := by
  induction targets generalizing draft with
  | nil => exact congrArg (Instruction.mk _ · _) (List.append_nil _).symm
  | cons target rest inductionHypothesis =>
    rw [List.foldl_cons, inductionHypothesis]
    simp only [addTarget, instruction, List.reverse_cons, List.append_assoc,
      List.singleton_append]

/-- Arguments taken one by one are kept with the latest first. -/
theorem foldl_addArgument (values : List Float) (draft : Draft) :
    values.foldl addArgument draft =
      { draft with arguments := values.reverse ++ draft.arguments } := by
  induction values generalizing draft with
  | nil => rfl
  | cons value rest inductionHypothesis =>
    rw [List.foldl_cons, inductionHypothesis]
    simp only [addArgument, List.reverse_cons, List.append_assoc, List.singleton_append]

/-- An instruction whose arguments and targets have been taken one by one. -/
theorem instruction_taken (line : Nat) (name : String) (values : List Float)
    (targets : List Target) :
    (targets.foldl addTarget
        (values.foldl addArgument ⟨line, name, [], []⟩)).instruction =
      ⟨Operator.ofName name, targets, values⟩ := by
  rw [instruction_foldl_addTarget, foldl_addArgument]
  simp only [instruction, List.append_nil, List.reverse_reverse, List.reverse_nil,
    List.nil_append]

end Draft

/-! ### What may stand behind a place -/

namespace Reader

/-- Whether tokens close all open blocks, perhaps with statements behind each, and lead from
    what has been written to a circuit. -/
def Closes : List OpenBlock → Builder → List Token → Circuit → Prop
  | [], written, tokens, circuit => tokens = [] ∧ written.circuit = circuit
  | block :: outer, written, tokens, circuit =>
    ∃ (more : Block) (closing : List Token), tokens = .rightBrace :: (more.tokens ++ closing) ∧
      Closes outer (more.circuit.foldl Builder.push
        (block.before.appendBlock block.repetitions written.circuit)) closing circuit

/-- Whether statements stand here, up to the end of the block that is being read. -/
def Derives (reader : Reader) (tokens : List Token) (circuit : Circuit) : Prop :=
  ∃ (block : Block) (closing : List Token), tokens = block.tokens ++ closing ∧
    Closes reader.enclosing (block.circuit.foldl Builder.push reader.written) closing circuit

/-- Whether a valid instruction ends here. -/
def Ends (reader : Reader) (draft : Draft) (tokens : List Token) (circuit : Circuit) : Prop :=
  EndsLine tokens ∧ draft.instruction.validate = .ok () ∧
    (reader.wrote (.single draft.instruction)).Derives tokens circuit

/-- Whether the remaining targets of an instruction stand here. -/
def DerivesTargets (reader : Reader) (draft : Draft) (tokens : List Token) (circuit : Circuit) :
    Prop :=
  ∃ (forms : List TargetForm) (rest : List Token),
    tokens = forms.flatMap TargetForm.tokens ++ rest ∧
      reader.Ends ((forms.map TargetForm.target).foldl Draft.addTarget draft) rest circuit

/-- Whether another target stands here. -/
def DerivesTarget (reader : Reader) (draft : Draft) (tokens : List Token) (circuit : Circuit) :
    Prop :=
  ∃ (form : TargetForm) (rest : List Token), tokens = form.tokens ++ rest ∧
    reader.DerivesTargets (draft.addTarget form.target) rest circuit

/-- Whether a closing parenthesis stands here, perhaps behind a comma and more arguments. -/
def DerivesLater (reader : Reader) (draft : Draft) (tokens : List Token) (circuit : Circuit) :
    Prop :=
  ∃ (numbers : List Number) (rest : List Token),
    tokens = numbers.flatMap Grammar.laterTokens ++ .rightParenthesis :: rest ∧
      reader.DerivesTargets ((numbers.map Number.value).foldl Draft.addArgument draft) rest circuit

/-- Whether another argument stands here. -/
def DerivesArgument (reader : Reader) (draft : Draft) (tokens : List Token) (circuit : Circuit) :
    Prop :=
  ∃ (number : Number) (rest : List Token), tokens = number.tokens ++ rest ∧
    reader.DerivesLater (draft.addArgument number.value) rest circuit

/-- Whether the arguments of an instruction, if it has any, and its targets stand here. -/
def DerivesArguments (reader : Reader) (draft : Draft) (tokens : List Token) (circuit : Circuit) :
    Prop :=
  ∃ (arguments : Option (List Number)) (rest : List Token),
    tokens = Grammar.argumentTokens arguments ++ rest ∧
      reader.DerivesTargets
        (((arguments.getD []).map Number.value).foldl Draft.addArgument draft) rest circuit

/-- Whether tokens lead a reader to a circuit. The tokens of a phrase that have been taken
    already are put back in front of them. -/
def Completes (reader : Reader) (tokens : List Token) (circuit : Circuit) : Prop :=
  match reader.place with
  | .statement => reader.Derives tokens circuit
  | .blockCount => reader.Derives (.word "REPEAT" :: tokens) circuit
  | .blockOpen repetitions =>
    reader.Derives (.word "REPEAT" :: .integer repetitions :: tokens) circuit
  | .name draft => reader.DerivesArguments draft tokens circuit
  | .firstArgument draft => reader.DerivesArguments draft (.leftParenthesis :: tokens) circuit
  | .argument draft => reader.DerivesArgument draft tokens circuit
  | .negativeArgument draft => reader.DerivesArgument draft (.minus :: tokens) circuit
  | .separator draft => reader.DerivesLater draft tokens circuit
  | .target draft => reader.DerivesTargets draft tokens circuit
  | .inverted draft => reader.DerivesTarget draft (.exclamation :: tokens) circuit
  | .recordOpen draft => reader.DerivesTarget draft (.word "rec" :: tokens) circuit
  | .recordIndex draft =>
    reader.DerivesTarget draft (.word "rec" :: .leftBracket :: tokens) circuit
  | .negativeRecordIndex draft =>
    reader.DerivesTarget draft (.word "rec" :: .leftBracket :: .minus :: tokens) circuit
  | .recordClose draft negative index =>
    reader.DerivesTarget draft (.word "rec" :: .leftBracket ::
      (Grammar.optional .minus negative ++ .integer index :: tokens)) circuit
  | .sweepOpen draft => reader.DerivesTarget draft (.word "sweep" :: tokens) circuit
  | .sweepIndex draft =>
    reader.DerivesTarget draft (.word "sweep" :: .leftBracket :: tokens) circuit
  | .sweepClose draft index =>
    reader.DerivesTarget draft (.word "sweep" :: .leftBracket :: .integer index :: tokens) circuit

/-- Whether a step is made, and to a reader that the tokens behind it lead to the circuit. -/
def Accepts (stepped : Except ParseError Reader) (tokens : List Token) (circuit : Circuit) : Prop :=
  ∃ next, stepped = .ok next ∧ next.Completes tokens circuit

variable {reader : Reader} {draft : Draft} {token : Token} {tokens : List Token} {line : Nat}
  {circuit : Circuit}

/-- A step to a reader with the same meaning. -/
theorem iff_accepts {stepped : Except ParseError Reader} {next : Reader} {meaning : Prop}
    (made : stepped = .ok next) (same : meaning ↔ next.Completes tokens circuit) :
    meaning ↔ Accepts stepped tokens circuit := by
  simp [Accepts, made, same]

/-- A step that is refused, where nothing can be derived. -/
theorem iff_refused {stepped : Except ParseError Reader} {fault : ParseError} {meaning : Prop}
    (made : stepped = .error fault) (nothing : ¬ meaning) :
    meaning ↔ Accepts stepped tokens circuit := by
  simp [Accepts, made, nothing]

/-! ### Statements -/

/-- Where open blocks are closed, a closing brace or the end of the text stands. -/
theorem Closes.endsBlock {enclosing : List OpenBlock} {written : Builder}
    (closes : Closes enclosing written tokens circuit) : EndsBlock tokens := by
  cases enclosing with
  | nil =>
    obtain ⟨rfl, -⟩ := closes
    trivial
  | cons block outer =>
    obtain ⟨more, closing, rfl, -⟩ := closes
    trivial

/-- Behind the last token all blocks are closed and the circuit has been written. -/
theorem derives_nil_iff :
    reader.Derives [] circuit ↔ reader.enclosing = [] ∧ reader.written.circuit = circuit := by
  constructor
  · rintro ⟨block, closing, same, closes⟩
    obtain ⟨rfl, rfl⟩ := Grammar.endsBlock_nil.eq_empty same
    cases enclosing : reader.enclosing with
    | nil =>
      rw [enclosing] at closes
      exact ⟨rfl, closes.2⟩
    | cons block outer =>
      rw [enclosing] at closes
      obtain ⟨more, closing, impossible, -⟩ := closes
      cases impossible
  · rintro ⟨enclosing, rfl⟩
    refine ⟨.empty, [], rfl, ?_⟩
    rw [enclosing]
    exact ⟨rfl, rfl⟩

/-- A new line between statements leads where the tokens behind it lead. -/
theorem derives_newline_iff :
    reader.Derives (.newline :: tokens) circuit ↔ reader.Derives tokens circuit := by
  constructor
  · rintro ⟨block, closing, same, closes⟩
    cases block with
    | empty =>
      obtain rfl : _ = closing := same
      exact closes.endsBlock.elim
    | newline rest => exact ⟨rest, closing, (List.cons.inj same).2, closes⟩
    | _ => cases same
  · rintro ⟨block, closing, rfl, closes⟩
    exact ⟨.newline block, closing, rfl, closes⟩

/-- A closing brace writes the block that was opened last, and the reader goes on outside of it. -/
theorem derives_rightBrace_iff {place : Place} {enclosing : List OpenBlock} {written : Builder} :
    (⟨place, enclosing, written⟩ : Reader).Derives (.rightBrace :: tokens) circuit ↔
      ∃ block outer, enclosing = block :: outer ∧
        (⟨.statement, outer, block.before.appendBlock block.repetitions written.circuit⟩ :
          Reader).Derives tokens circuit := by
  constructor
  · rintro ⟨inner, closing, same, closes⟩
    obtain ⟨rfl, rfl⟩ := (Grammar.endsBlock_rightBrace tokens).eq_empty same
    cases enclosing with
    | nil => cases closes.1
    | cons block outer =>
      obtain ⟨more, closing, same, closes⟩ := closes
      exact ⟨block, outer, rfl, more, closing, (List.cons.inj same).2, closes⟩
  · rintro ⟨block, outer, rfl, more, closing, rfl, closes⟩
    exact ⟨.empty, _, rfl, more, closing, rfl, closes⟩

/-- A block is opened by a count and a brace, and the reader goes on inside of it. -/
theorem derives_opening_iff {word : String} (opens : word.toUpper = "REPEAT") :
    reader.Derives (.word word :: tokens) circuit ↔
      ∃ repetitions rest, tokens = .integer repetitions :: .leftBrace :: rest ∧
        (⟨.statement, ⟨repetitions, reader.written⟩ :: reader.enclosing, .empty⟩ : Reader).Derives
          rest circuit := by
  constructor
  · rintro ⟨block, closing, same, closes⟩
    cases block with
    | empty =>
      obtain rfl : _ = closing := same
      exact closes.endsBlock.elim
    | newline rest => cases same
    | repetition other otherOpens repetitions body more =>
      simp only [Block.tokens, List.cons_append, List.append_assoc, List.cons.injEq,
        Token.word.injEq] at same
      obtain ⟨rfl, rfl⟩ := same
      refine ⟨repetitions, _, rfl, body, _, rfl, more, closing, rfl, ?_⟩
      rw [Builder.circuit_foldl_push]
      exact closes
    | lastLine last => exact absurd same.symm (last.tokens_ne opens _ _)
    | line first rest =>
      rw [Block.tokens_line_append] at same
      exact absurd same.symm (first.tokens_ne opens _ _)
  · rintro ⟨repetitions, rest, rfl, body, closing, rfl, more, behind, rfl, closes⟩
    refine ⟨.repetition word opens repetitions body more, behind, ?_, ?_⟩
    · rw [Block.tokens, List.cons_append, List.cons_append, List.cons_append, List.append_assoc]
      rfl
    · rw [Builder.circuit_foldl_push] at closes
      exact closes

/-- The word that opens a block is in upper case. -/
theorem toUpper_repeat : "REPEAT".toUpper = "REPEAT" := by
  decide +kernel

/-- A name begins a line. What may stand behind the line says how the block goes on. -/
theorem derives_name_iff {word : String} (opensNone : word.toUpper ≠ "REPEAT") :
    reader.Derives (.word word :: tokens) circuit ↔
      ∃ (first : Line) (rest : List Token), .word word :: tokens = first.tokens ++ rest ∧
        EndsLine rest ∧ (reader.wrote (.single first.instruction)).Derives rest circuit := by
  constructor
  · rintro ⟨block, closing, same, closes⟩
    cases block with
    | empty =>
      obtain rfl : _ = closing := same
      exact closes.endsBlock.elim
    | newline rest => cases same
    | repetition other opens repetitions body more =>
      obtain rfl : word = other := Token.word.inj (List.cons.inj same).1
      exact absurd opens opensNone
    | lastLine last =>
      exact ⟨last, closing, same, closes.endsBlock.endsLine, .empty, closing, rfl, closes⟩
    | line first rest =>
      rw [Block.tokens_line_append] at same
      exact ⟨first, _, same, Grammar.endsLine_newline _, .newline rest, closing, rfl, closes⟩
  · rintro ⟨first, rest, same, ends, block, closing, rfl, closes⟩
    rw [same]
    -- Behind a line only the end of the block or a line end may stand.
    cases block with
    | empty => exact ⟨.lastLine first, closing, rfl, closes⟩
    | newline more => exact ⟨.line first more, closing, (Block.tokens_line_append ..).symm, closes⟩
    | _ => exact ends.elim

/-! ### Targets -/

/-- Behind a target the instruction ends or another target stands. -/
theorem derivesTargets_iff :
    reader.DerivesTargets draft tokens circuit ↔
      reader.Ends draft tokens circuit ∨ reader.DerivesTarget draft tokens circuit := by
  constructor
  · rintro ⟨forms, rest, rfl, ends⟩
    cases forms with
    | nil => exact .inl ends
    | cons form others =>
      refine .inr ⟨form, others.flatMap TargetForm.tokens ++ rest, ?_, others, rest, rfl, ends⟩
      rw [List.flatMap_cons, List.append_assoc]
  · rintro (ends | ⟨form, rest, rfl, forms, behind, rfl, ends⟩)
    · exact ⟨[], tokens, rfl, ends⟩
    · refine ⟨form :: forms, behind, ?_, ends⟩
      rw [List.flatMap_cons, List.append_assoc]

/-- At the end of a line the instruction has to be valid and is written. -/
theorem derivesTargets_of_endsLine (ends : EndsLine tokens) :
    reader.DerivesTargets draft tokens circuit ↔ draft.instruction.validate = .ok () ∧
      (reader.wrote (.single draft.instruction)).Derives tokens circuit := by
  rw [derivesTargets_iff]
  constructor
  · rintro (⟨-, both⟩ | ⟨form, rest, same, -⟩)
    · exact both
    · exact absurd same (ends.ne form rest)
  · exact fun both => .inl ⟨ends, both⟩

/-- Before the end of a line another target stands. -/
theorem derivesTargets_of_not_endsLine (inside : ¬ EndsLine tokens) :
    reader.DerivesTargets draft tokens circuit ↔ reader.DerivesTarget draft tokens circuit := by
  rw [derivesTargets_iff]
  exact or_iff_right fun ends => inside ends.1

/-- What stands behind an inversion mark. -/
theorem DerivesTarget.inverted
    (derives : reader.DerivesTarget draft (.exclamation :: tokens) circuit) :
    (∃ index rest, tokens = .integer index :: rest) ∨ ∃ word rest, tokens = .word word :: rest := by
  obtain ⟨_ | ⟨_ | _, id⟩ | ⟨_ | _, word⟩ | ⟨lookback, back⟩ | index, rest, same, -⟩ := derives
  all_goals cases same
  · exact .inl ⟨_, _, rfl⟩
  · exact .inr ⟨_, _, rfl⟩

/-- What stands behind the word for a record. -/
theorem DerivesTarget.record
    (derives : reader.DerivesTarget draft (.word "rec" :: tokens) circuit) :
    ∃ index rest, tokens = .leftBracket :: .minus :: .integer index :: .rightBracket :: rest := by
  obtain ⟨form, rest, same, -⟩ := derives
  obtain ⟨lookback, back, rfl⟩ := TargetForm.eq_record same
  exact ⟨_, rest, (List.cons.inj same).2⟩

/-- What stands behind the word for a sweep bit. -/
theorem DerivesTarget.sweep
    (derives : reader.DerivesTarget draft (.word "sweep" :: tokens) circuit) :
    ∃ index rest, tokens = .leftBracket :: .integer index :: .rightBracket :: rest := by
  obtain ⟨form, rest, same, -⟩ := derives
  obtain ⟨index, rfl⟩ := TargetForm.eq_sweep same
  exact ⟨_, rest, (List.cons.inj same).2⟩

/-- A target that ends here is accepted if it can be read and the remaining targets are derived. -/
theorem accepts_addTarget_iff {target? : Except TargetError Target} :
    Accepts (reader.addTarget draft line target?) tokens circuit ↔
      ∃ target, target? = .ok target ∧
        reader.DerivesTargets (draft.addTarget target) tokens circuit := by
  symm
  cases target? with
  | error fault => exact iff_refused rfl nofun
  | ok target =>
    refine iff_accepts rfl ?_
    simp only [Except.ok.injEq, exists_eq_left']
    rfl

/-- The last token of a target: all its tokens together are read as a target exactly if the
    grammar derives that target from them. -/
theorem derivesTarget_iff (taken : List Token) {target? : Except TargetError Target}
    (sound : ∀ target, target? = .ok target →
      ∃ form : TargetForm, form.tokens = taken ∧ form.target = target)
    (complete : ∀ (form : TargetForm) (rest : List Token),
      taken ++ tokens = form.tokens ++ rest → target? = .ok form.target) :
    reader.DerivesTarget draft (taken ++ tokens) circuit ↔
      Accepts (reader.addTarget draft line target?) tokens circuit := by
  rw [accepts_addTarget_iff]
  constructor
  · rintro ⟨form, rest, same, derives⟩
    have reads := complete form rest same
    obtain ⟨other, rfl, -⟩ := sound form.target reads
    obtain ⟨rfl, rfl⟩ := TargetForm.prefixCode same
    exact ⟨_, reads, derives⟩
  · rintro ⟨target, reads, derives⟩
    obtain ⟨form, rfl, rfl⟩ := sound target reads
    exact ⟨form, tokens, rfl, derives⟩

/-- A star is a combiner. -/
theorem derivesTarget_star_iff :
    reader.DerivesTarget draft (.star :: tokens) circuit ↔
      reader.DerivesTargets (draft.addTarget .combiner) tokens circuit := by
  constructor
  · rintro ⟨_ | ⟨_ | _, id⟩ | ⟨_ | _, word⟩ | ⟨lookback, back⟩ | index, rest, ⟨⟩, derives⟩
    exact derives
  · exact fun derives => ⟨.combiner, tokens, rfl, derives⟩

/-- A number, perhaps behind an exclamation mark, is a qubit if it can be read as one. -/
theorem derivesTarget_qubit_iff (inverted : Bool) {index : UInt64} :
    reader.DerivesTarget draft
        (Grammar.optional .exclamation inverted ++ .integer index :: tokens) circuit ↔
      Accepts (reader.addTarget draft line ((readQubit index).map fun id => .qubit id inverted))
        tokens circuit := by
  rw [← List.singleton_append, ← List.append_assoc]
  apply derivesTarget_iff
  · intro target reads
    obtain ⟨id, fits, rfl⟩ := exists_of_map_eq_ok reads
    obtain rfl := readQubit_eq_ok_iff.mp fits
    exact ⟨.qubit inverted id, rfl, rfl⟩
  · cases inverted
    all_goals
      rintro (_ | ⟨_ | _, id⟩ | ⟨_ | _, word⟩ | ⟨lookback, back⟩ | index) rest ⟨⟩
      rw [readQubit_toUInt64]
      rfl

/-- A word that opens no bit is a Pauli operator if it can be read as one. -/
theorem derivesTarget_pauli_iff (inverted : Bool) {text : String}
    (noBit : inverted = false → text ≠ "rec" ∧ text ≠ "sweep") :
    reader.DerivesTarget draft
        (Grammar.optional .exclamation inverted ++ .word text :: tokens) circuit ↔
      Accepts (reader.addTarget draft line (readPauli text inverted)) tokens circuit := by
  rw [← List.singleton_append, ← List.append_assoc]
  apply derivesTarget_iff
  · intro target reads
    obtain ⟨word, rfl, rfl⟩ := readPauli_eq_ok_iff.mp reads
    exact ⟨.pauli inverted word, rfl, rfl⟩
  · cases inverted
    all_goals
      rintro (_ | ⟨_ | _, id⟩ | ⟨_ | _, word⟩ | ⟨lookback, back⟩ | index) rest ⟨⟩
    · exact readPauli_eq_ok_iff.mpr ⟨word, rfl, rfl⟩
    · exact absurd rfl (noBit rfl).1
    · exact absurd rfl (noBit rfl).2
    · exact readPauli_eq_ok_iff.mpr ⟨word, rfl, rfl⟩

/-- An index in brackets behind the word for records is a record if it can be read as one. -/
theorem derivesTarget_record_iff (negative : Bool) {index : UInt64} :
    reader.DerivesTarget draft (.word "rec" :: .leftBracket ::
        (Grammar.optional .minus negative ++ .integer index :: .rightBracket :: tokens)) circuit ↔
      Accepts (reader.addTarget draft line (readRecord negative index)) tokens circuit := by
  cases negative with
  | false =>
    refine iff_refused rfl fun derives => ?_
    obtain ⟨_, _, ⟨⟩⟩ := derives.record
  | true =>
    refine derivesTarget_iff
      [.word "rec", .leftBracket, .minus, .integer index, .rightBracket] ?_ ?_
    · intro target reads
      obtain ⟨-, lookback, back, rfl, rfl⟩ := readRecord_eq_ok_iff.mp reads
      exact ⟨.record lookback back, rfl, rfl⟩
    · intro form rest same
      obtain ⟨lookback, back, rfl⟩ := TargetForm.eq_record same
      cases same
      exact readRecord_toUInt64 back

/-- An index in brackets behind the word for sweeps is a sweep bit if it can be read as one. -/
theorem derivesTarget_sweep_iff {index : UInt64} :
    reader.DerivesTarget draft
        (.word "sweep" :: .leftBracket :: .integer index :: .rightBracket :: tokens) circuit ↔
      Accepts (reader.addTarget draft line (readSweep index)) tokens circuit := by
  refine derivesTarget_iff [.word "sweep", .leftBracket, .integer index, .rightBracket] ?_ ?_
  · intro target reads
    obtain ⟨bit, rfl, rfl⟩ := readSweep_eq_ok_iff.mp reads
    exact ⟨.sweep bit, rfl, rfl⟩
  · intro form rest same
    obtain ⟨bit, rfl⟩ := TargetForm.eq_sweep same
    cases same
    exact readSweep_eq_ok_iff.mpr ⟨bit, rfl, rfl⟩

/-! ### Arguments -/

/-- Behind an argument the arguments end or a comma and another argument stand. -/
theorem derivesLater_iff :
    reader.DerivesLater draft tokens circuit ↔
      (∃ rest, tokens = .rightParenthesis :: rest ∧ reader.DerivesTargets draft rest circuit) ∨
      ∃ rest, tokens = .comma :: rest ∧ reader.DerivesArgument draft rest circuit := by
  constructor
  · rintro ⟨numbers, rest, rfl, derives⟩
    cases numbers with
    | nil => exact .inl ⟨rest, rfl, derives⟩
    | cons number others =>
      refine .inr ⟨_, ?_, number, _, rfl, others, rest, rfl, derives⟩
      rw [List.flatMap_cons, List.append_assoc, Grammar.laterTokens, List.cons_append]
  · rintro (⟨rest, rfl, derives⟩ | ⟨_, rfl, number, _, rfl, others, rest, rfl, derives⟩)
    · exact ⟨[], rest, rfl, derives⟩
    · refine ⟨number :: others, rest, ?_, derives⟩
      rw [List.flatMap_cons, List.append_assoc, Grammar.laterTokens, List.cons_append]

/-- An opening parenthesis is closed at once or has an argument behind it. -/
theorem derivesArguments_leftParenthesis_iff :
    reader.DerivesArguments draft (.leftParenthesis :: tokens) circuit ↔
      (∃ rest, tokens = .rightParenthesis :: rest ∧ reader.DerivesTargets draft rest circuit) ∨
      reader.DerivesArgument draft tokens circuit := by
  constructor
  · rintro ⟨_ | _ | ⟨number, others⟩, rest, same, derives⟩
    · obtain ⟨forms, behind, rfl, ends, -⟩ := derives
      exact absurd same.symm (Grammar.flatMap_tokens_ne ends _)
    · exact .inl ⟨rest, (List.cons.inj same).2, derives⟩
    · refine .inr ⟨number, _, ?_, others, rest, rfl, derives⟩
      rw [(List.cons.inj same).2, Grammar.listTokens]
      simp only [List.append_eq, List.append_assoc, List.singleton_append]
  · rintro (⟨rest, rfl, derives⟩ | ⟨number, _, rfl, others, rest, rfl, derives⟩)
    · exact ⟨some [], rest, rfl, derives⟩
    · refine ⟨some (number :: others), rest, ?_, derives⟩
      simp only [Grammar.argumentTokens, Grammar.listTokens, List.cons_append, List.append_assoc,
        List.nil_append]

/-- Without an opening parenthesis there are no arguments. -/
theorem derivesArguments_of_ne (noArguments : ∀ rest, tokens ≠ .leftParenthesis :: rest) :
    reader.DerivesArguments draft tokens circuit ↔
      reader.DerivesTargets draft tokens circuit := by
  constructor
  · rintro ⟨_ | numbers, rest, same, derives⟩
    · rw [same]
      exact derives
    · exact absurd same (noArguments _)
  · exact fun derives => ⟨none, _, rfl, derives⟩

/-- The last token of a number. -/
theorem derivesArgument_number_iff (negative : Bool)
    (noSign : negative = false → token ≠ .minus) :
    reader.DerivesArgument draft (Grammar.optional .minus negative ++ token :: tokens) circuit ↔
      Accepts (reader.stepNumber draft negative ⟨token, line⟩) tokens circuit := by
  have complete (number : Number) :
      reader.DerivesArgument draft (number.tokens ++ tokens) circuit ↔
        reader.DerivesLater (draft.addArgument number.value) tokens circuit := by
    constructor
    · rintro ⟨other, rest, same, derives⟩
      obtain ⟨rfl, rfl⟩ := Number.prefixCode same
      exact derives
    · exact fun derives => ⟨number, tokens, rfl, derives⟩
  cases token with
  | integer value =>
    rw [← List.singleton_append, ← List.append_assoc]
    exact iff_accepts rfl (complete (.integer negative value))
  | decimal value =>
    rw [← List.singleton_append, ← List.append_assoc]
    exact iff_accepts rfl (complete (.decimal negative value))
  | minus =>
    cases negative with
    | false => exact absurd rfl (noSign rfl)
    | true =>
      refine iff_refused rfl ?_
      rintro ⟨⟨_ | _, value⟩ | ⟨_ | _, value⟩, rest, ⟨⟩, -⟩
  | _ =>
    refine iff_refused rfl ?_
    cases negative
    all_goals rintro ⟨⟨_ | _, value⟩ | ⟨_ | _, value⟩, rest, ⟨⟩, -⟩

/-- A closing parenthesis behind an argument ends the arguments. -/
theorem derivesLater_rightParenthesis_iff :
    reader.DerivesLater draft (.rightParenthesis :: tokens) circuit ↔
      reader.DerivesTargets draft tokens circuit := by
  simp [derivesLater_iff]

/-- A comma behind an argument has another argument behind it. -/
theorem derivesLater_comma_iff :
    reader.DerivesLater draft (.comma :: tokens) circuit ↔
      reader.DerivesArgument draft tokens circuit := by
  simp [derivesLater_iff]

/-- Parentheses with nothing in between are no arguments. -/
theorem derivesArguments_closed_iff :
    reader.DerivesArguments draft (.leftParenthesis :: .rightParenthesis :: tokens) circuit ↔
      reader.DerivesTargets draft tokens circuit := by
  rw [derivesArguments_leftParenthesis_iff]
  constructor
  · rintro (⟨_, ⟨⟩, derives⟩ | ⟨number, rest, same, -⟩)
    · exact derives
    · exact absurd same.symm (number.tokens_ne rest tokens)
  · exact fun derives => .inl ⟨tokens, rfl, derives⟩

/-- An opening parenthesis that is not closed at once has an argument behind it. -/
theorem derivesArguments_open_iff (more : token ≠ .rightParenthesis) :
    reader.DerivesArguments draft (.leftParenthesis :: token :: tokens) circuit ↔
      reader.DerivesArgument draft (token :: tokens) circuit := by
  simp [derivesArguments_leftParenthesis_iff, more]

/-! ### Lines -/

/-- A name that opens no block begins an instruction. -/
theorem derives_word_iff {word : String} (opensNone : word.toUpper ≠ "REPEAT") :
    reader.Derives (.word word :: tokens) circuit ↔
      reader.DerivesArguments ⟨line, word, [], []⟩ tokens circuit := by
  rw [derives_name_iff opensNone]
  constructor
  · rintro ⟨⟨name, arguments, forms, _, valid⟩, rest, same, ends, derives⟩
    simp only [Line.tokens, List.cons_append, List.cons.injEq, Token.word.injEq,
      List.append_assoc] at same
    obtain ⟨rfl, rfl⟩ := same
    refine ⟨arguments, _, rfl, forms, rest, rfl, ends, ?_⟩
    rw [Draft.instruction_taken]
    exact ⟨valid, derives⟩
  · rintro ⟨arguments, _, rfl, forms, rest, rfl, ends, both⟩
    rw [Draft.instruction_taken] at both
    refine ⟨⟨word, arguments, forms, opensNone, both.1⟩, rest, ?_, ends, both.2⟩
    simp only [Line.tokens, List.cons_append, List.append_assoc]

/-- A valid instruction is written where it ends. -/
theorem endInstruction_valid (reader : Reader) (valid : draft.instruction.validate = .ok ()) :
    reader.endInstruction draft = .ok (reader.wrote (.single draft.instruction)) := by
  simp only [endInstruction, Builder.append, valid, wrote]

/-- An invalid instruction is refused with its fault and the line where it starts. -/
theorem endInstruction_invalid (reader : Reader) {fault : InstructionError}
    (invalid : draft.instruction.validate = .error fault) :
    reader.endInstruction draft = .error (.invalidInstruction draft.line fault) := by
  simp only [endInstruction, Builder.append, invalid]

end Reader

end StabilizerLayers
