import StabilizerLayers.Proofs.Schedule.Entries
import StabilizerLayers.Proofs.Text.Acceptance

/-!
# Numbers of any length

A whole number in a text may have any number of digits. It is never cut down to a width: an
index that 32 bits do not hold is refused as a target, and digits that 64 bits do not hold are
refused as a token.

A number stands in one of two ways. As a token of its own it is an integer, and that must fit
into 64 bits before anything looks at the index (`Slot.scanText_text`). Behind the letter of an
axis it is part of a word, which may be as long as it likes, so it is always the operator that
is refused. What a reader then makes of the index of a target is told by `Reader.Reads`, once
for each kind of target.
-/

namespace StabilizerLayers

open Token (Apart Scans onLine)

/-- A whole number as it is written: at least one decimal digit, with or without zeros in
    front. -/
structure Numeral where
  digits : List Char
  digits_ne_nil : digits ≠ []
  all_isDigit : ∀ digit ∈ digits, digit.isDigit = true

namespace Numeral

/-- The digits as text. -/
def text (numeral : Numeral) : String := String.ofList numeral.digits

/-- The number, however large it is. -/
def value (numeral : Numeral) : Nat := Nat.ofDigitChars 10 numeral.digits 0

/-- What a line with an index is read as: the index is used if it fits into 32 bits, its target
    is refused if it fits into 64 bits, and otherwise its digits are refused. -/
def indexed (numeral : Numeral) (circuit : UInt32 → Circuit) (fault : TargetError) :
    Except ParseError Circuit :=
  if fits : numeral.value < UInt32.size then .ok (circuit (.ofNatLT numeral.value fits))
  else if numeral.value < UInt64.size then .error (.invalidTarget 1 fault)
  else .error (.unreadable 1 numeral.text)

end Numeral

/-! ### Scanning -/

namespace Token

/-- Digits are one integer if 64 bits hold it, and otherwise all of them are refused. -/
theorem scan_numeral (numeral : Numeral) (line : Nat) {rest : List Char} (apart : Apart rest) :
    scan line 0 (numeral.digits ++ rest) =
      if numeral.value < UInt64.size then
        (scan line 0 rest).map (⟨.integer (UInt64.ofNat numeral.value), line⟩ :: ·)
      else .error (.unreadable line numeral.text) := by
  obtain ⟨digits, digits_ne_nil, all_isDigit⟩ := numeral
  obtain ⟨first, more, rfl⟩ := List.exists_cons_of_ne_nil digits_ne_nil
  have reads := readNumber_whole all_isDigit apart
  rw [List.cons_append, ← read_digit (all_isDigit first (List.mem_cons_self ..))] at reads
  rw [List.cons_append]
  split
  · rename_i small
    rw [scan_token (reads.trans (if_pos small)), List.length_cons, Nat.add_sub_cancel,
      List.drop_left]
    rfl
  · rename_i large
    simp only [scan, reads.trans (if_neg large)]
    rfl

/-- What a part of a line is read as, whatever follows it. -/
def Leads (characters : List Char) (tokens : List Token) : Prop :=
  ∀ line rest, scan line 0 (characters ++ rest) =
    (scan line 0 rest).map (onLine line tokens ++ ·)

namespace Leads

/-- Nothing is read as nothing. -/
theorem nil : Leads [] [] := by
  intro line rest
  rw [List.nil_append]
  cases scan line 0 rest with
  | error fault => rfl
  | ok lexemes => rfl

/-- A blank leads on to what the characters behind it lead to. -/
theorem blank {first : Char} {others : List Char} {tokens : List Token}
    (isBlank : isBlank first = true) (leads : Leads others tokens) :
    Leads (first :: others) tokens := by
  intro line rest
  rw [← leads line rest, List.cons_append, scan]
  simp only [read, isBlank, if_true]

/-- A token leads on to what the characters behind it lead to. -/
theorem token {first : Char} {more others : List Char} {token : Token} {tokens : List Token}
    (reads : ∀ rest, read first (more ++ (others ++ rest)) = .token token more.length)
    (leads : Leads others tokens) : Leads (first :: (more ++ others)) (token :: tokens) := by
  intro line rest
  rw [List.cons_append, List.append_assoc, scan_token (reads rest), List.drop_left,
    leads line rest]
  cases scan line 0 rest with
  | error fault => rfl
  | ok lexemes => rfl

/-- A mark leads on to what the characters behind it lead to. -/
theorem mark {first : Char} {others : List Char} {token : Token} {tokens : List Token}
    (isMark : mark? first = some token) (leads : Leads others tokens) :
    Leads (first :: others) (token :: tokens) := by
  have reads : ∀ rest, read first ([] ++ (others ++ rest)) = .token token ([] : List Char).length :=
    fun rest => read_mark isMark (others ++ rest)
  exact leads.token reads

/-- A word leads on if the character behind it cannot belong to it. -/
theorem word {word others : List Char} {next : Char} {tokens : List Token}
    (isWord : isWord word = true) (apart : Apart [next]) (leads : Leads (next :: others) tokens) :
    Leads (word ++ next :: others) (.word (String.ofList word) :: tokens) := by
  cases word with
  | nil => contradiction
  | cons first more => exact leads.token fun rest => read_word isWord apart

end Leads

/-- A text without a line end is one line. -/
theorem splitLines_of_oneLine {line : List Char} (oneLine : '\n' ∉ line) (current : List Char) :
    splitLines current line = [current.reverse ++ line] := by
  induction line generalizing current with
  | nil => rw [splitLines, List.append_nil]
  | cons first rest inductionHypothesis =>
    obtain ⟨goesOn, later⟩ := not_or.mp (List.mem_cons.not.mp oneLine)
    rw [splitLines_cons fun ends => goesOn ends.symm, inductionHypothesis later,
      List.reverse_cons, List.append_assoc, List.singleton_append]

/-- A text without a line end is scanned as its first line. -/
theorem scanText_of_oneLine {source : String} (oneLine : '\n' ∉ source.toList) :
    scanText source = scan 1 0 source.toList := by
  rw [scanText, splitLines_of_oneLine oneLine, List.reverse_nil, List.nil_append, scanLines]

end Token

/-- A place for a number: what stands before and behind it on its line, with the tokens that
    these parts are read as. Nothing before the place reaches into it, and it ends where the
    digits do. -/
structure Slot where
  before : String
  after : String
  opening : List Token
  closing : List Token
  leads : Token.Leads before.toList opening
  scans : Scans after.toList (some closing)
  apart : Apart after.toList
  oneLine : '\n' ∉ before.toList

namespace Slot

/-- The line with a number in its place. -/
def text (slot : Slot) (numeral : Numeral) : String := slot.before ++ numeral.text ++ slot.after

/-- The tokens of the line with an integer in its place. -/
def tokens (slot : Slot) (index : UInt64) : List Token :=
  slot.opening ++ .integer index :: slot.closing

/-- A line with a number in it can be scanned exactly if 64 bits hold the number. -/
theorem scanText_text (slot : Slot) (numeral : Numeral) :
    Token.scanText (slot.text numeral) =
      if numeral.value < UInt64.size then
        .ok (onLine 1 (slot.tokens (UInt64.ofNat numeral.value)))
      else .error (.unreadable 1 numeral.text) := by
  have characters : (slot.text numeral).toList =
      slot.before.toList ++ (numeral.digits ++ slot.after.toList) := by
    rw [text, String.toList_append, String.toList_append, Numeral.text, String.toList_ofList,
      List.append_assoc]
  have oneLine : '\n' ∉ (slot.text numeral).toList := by
    rw [characters, List.mem_append, List.mem_append]
    rintro (inBefore | inDigits | inAfter)
    · exact slot.oneLine inBefore
    · exact Token.not_mem_of_digits numeral.all_isDigit inDigits
    · exact slot.scans.oneLine inAfter
  have ends : Token.scan 1 0 slot.after.toList = .ok (onLine 1 slot.closing) :=
    eq_ok_of_toOption (Token.toOption_scan slot.scans 1)
  rw [Token.scanText_of_oneLine oneLine, characters, slot.leads,
    Token.scan_numeral numeral 1 slot.apart, ends]
  split
  · rw [tokens, Token.onLine_append]
    rfl
  · rfl

end Slot

/-! ### Indices -/

namespace Numeral

variable (numeral : Numeral) (small : numeral.value < UInt64.size)

/-- The index of a target, if 32 bits hold it. -/
def index (fault : TargetError) : Except TargetError UInt32 :=
  if fits : numeral.value < UInt32.size then .ok (.ofNatLT numeral.value fits) else .error fault

/-- What 64 bits do not hold, 32 bits do not hold either. -/
theorem not_lt_of_not_lt (large : ¬ numeral.value < UInt64.size) :
    ¬ numeral.value < UInt32.size := fun fits => large (Nat.lt_trans fits (by decide))

include small

/-- A number that 64 bits hold is cut down to 32 bits only if they hold it too. -/
theorem index32?_value :
    index32? (.ofNat numeral.value) =
      if fits : numeral.value < UInt32.size then some (.ofNatLT numeral.value fits) else none := by
  rw [index32?, UInt64.toNat_ofNat_of_lt' small]
  split
  · rename_i fits
    apply congrArg some
    apply UInt32.toNat_inj.mp
    rw [UInt64.toNat_toUInt32, UInt64.toNat_ofNat_of_lt' small, UInt32.toNat_ofNatLT]
    exact Nat.mod_eq_of_lt fits
  · rfl

/-- The index of a qubit is used if 32 bits hold it, and reported otherwise. -/
theorem readQubit_value :
    readQubit (.ofNat numeral.value) =
      numeral.index (.qubitOutOfRange (.ofNat numeral.value)) := by
  rw [readQubit, numeral.index32?_value small, index]
  by_cases fits : numeral.value < UInt32.size <;> simp [fits]

/-- The index of a sweep bit is used if 32 bits hold it. -/
theorem readSweep_value :
    readSweep (.ofNat numeral.value) = (numeral.index .sweepOutOfRange).map .sweep := by
  rw [readSweep, numeral.index32?_value small, index]
  by_cases fits : numeral.value < UInt32.size <;> simp [fits, Except.map]

/-- A lookback that is not zero is used if 32 bits hold it. -/
theorem readRecord_value (back : numeral.value ≠ 0) :
    readRecord true (.ofNat numeral.value) =
      (numeral.index .recordOutOfRange).map .record := by
  have nonzero : (UInt64.ofNat numeral.value == 0) = false := by
    apply beq_false_of_ne
    intro zero
    have none := congrArg UInt64.toNat zero
    rw [UInt64.toNat_ofNat_of_lt' small] at none
    exact back none
  rw [readRecord, nonzero, numeral.index32?_value small, index]
  by_cases fits : numeral.value < UInt32.size <;> simp [fits, Except.map]

end Numeral

/-! ### Targets -/

namespace Reader

/-- What some tokens stand for among the targets of an instruction: a target that is added, or
    one that is refused. -/
def Reads (tokens : List Token) (outcome : Except TargetError Target) : Prop :=
  ∀ (reader : Reader) (draft : Draft), reader.place.targetsOf? = some draft →
    ∀ (line : Nat) (rest : List Lexeme), reader.advance (onLine line tokens ++ rest) =
      (reader.addTarget draft line outcome).bind fun next => next.advance rest

/-- One more token, the last of a target. -/
theorem advance_last {reader : Reader} {token : Token} {line : Nat}
    {result : Except ParseError Reader} (step : reader.step ⟨token, line⟩ = result)
    (rest : List Lexeme) :
    reader.advance (⟨token, line⟩ :: rest) = result.bind fun next => next.advance rest := by
  rw [advance, step]
  cases result with
  | error fault => rfl
  | ok next => rfl

/-- One more token that is not the last. -/
theorem advance_more {reader next : Reader} {token : Token} {line : Nat}
    (step : reader.step ⟨token, line⟩ = .ok next) (rest : List Lexeme) :
    reader.advance (⟨token, line⟩ :: rest) = next.advance rest := by
  rw [advance, step]

/-- An integer, perhaps behind an exclamation mark, stands for a qubit. -/
theorem reads_qubit (inverted : Bool) (index : UInt64) :
    Reads (Target.inversionTokens inverted ++ [.integer index])
      ((readQubit index).map fun id => .qubit id inverted) := by
  intro reader draft among line rest
  cases inverted with
  | false => exact advance_last (step_target among Token.noConfusion) rest
  | true =>
    refine (advance_more (step_target among Token.noConfusion) _).trans ?_
    exact advance_last rfl rest

/-- A negative index in brackets stands for a record. -/
theorem reads_record (index : UInt64) :
    Reads [.word "rec", .leftBracket, .minus, .integer index, .rightBracket]
      (readRecord true index) := by
  intro reader draft among line rest
  refine (advance_more (step_target among Token.noConfusion) _).trans ?_
  refine (advance_more rfl _).trans ?_
  refine (advance_more rfl _).trans ?_
  refine (advance_more rfl _).trans ?_
  exact advance_last rfl rest

/-- An index in brackets stands for a sweep bit. -/
theorem reads_sweep (index : UInt64) :
    Reads [.word "sweep", .leftBracket, .integer index, .rightBracket] (readSweep index) := by
  intro reader draft among line rest
  refine (advance_more (step_target among Token.noConfusion) _).trans ?_
  refine (advance_more rfl _).trans ?_
  refine (advance_more rfl _).trans ?_
  exact advance_last rfl rest

/-- A word that opens no bit stands for a Pauli operator. -/
theorem reads_word {word : String} (noRecord : word ≠ "rec") (noSweep : word ≠ "sweep") :
    Reads [.word word] (readPauli word false) := by
  intro reader draft among line rest
  apply advance_last _ rest
  rw [step_target among Token.noConfusion, stepTarget_word noRecord noSweep]

end Reader

namespace Circuit

variable {gate : Gate} {tokens : List Token}

/-- A gate and the tokens of its first target. -/
theorem advance_first {outcome : Except TargetError Target} (reads : Reader.Reads tokens outcome)
    (rest : List Lexeme) :
    Reader.start.advance (onLine 1 (.word gate.name :: tokens) ++ rest) =
      (Reader.start.addTarget ⟨1, gate.name, [], []⟩ 1 outcome).bind fun next =>
        next.advance rest := by
  have readable : (Operator.known gate).IsReadable := trivial
  have name : Reader.start.step ⟨.word gate.name, 1⟩ = _ := Reader.step_name rfl readable 1
  have among : (Reader.start.moved (.name ⟨1, gate.name, [], []⟩)).place.targetsOf? =
      some ⟨1, gate.name, [], []⟩ := rfl
  refine (Reader.advance_more name _).trans ((reads _ _ among 1 rest).trans ?_)
  cases outcome with
  | error fault => rfl
  | ok target => rfl

/-- A first target that is refused refuses the line. -/
theorem ofLexemes_refused {fault : TargetError} (reads : Reader.Reads tokens (.error fault))
    (rest : List Token) :
    ofLexemes (onLine 1 (.word gate.name :: tokens ++ rest)) = .error (.invalidTarget 1 fault) := by
  rw [ofLexemes, Token.onLine_append, advance_first reads]
  rfl

/-- A first target that is added and targets behind it make up an instruction. -/
theorem ofLexemes_added {target : Target} (reads : Reader.Reads tokens (.ok target))
    {others : List Target} (back : ∀ other ∈ others, other.CountsBack)
    (valid : (Instruction.on gate (target :: others)).validate = .ok ()) :
    ofLexemes (onLine 1 (.word gate.name :: tokens ++ others.flatMap Target.tokens)) =
      .ok [.single (.on gate (target :: others))] := by
  have among : (Reader.start.moved (.target ⟨1, gate.name, [], [target]⟩)).place.targetsOf? =
      some ⟨1, gate.name, [], [target]⟩ := rfl
  obtain ⟨place, reached, taken⟩ := Reader.takes_targets among back 1
  have advanced := Reader.advance_append_of_takes taken []
  have readable : (Operator.known gate).IsReadable := trivial
  have operator : Operator.ofName gate.name = .known gate := Operator.ofName_name readable
  have complete : Draft.instruction ⟨1, gate.name, [], others.reverse ++ [target]⟩ =
      .on gate (target :: others) := by
    simp only [Draft.instruction, operator, List.reverse_append, List.reverse_reverse]
    rfl
  rw [List.append_nil] at advanced
  rw [ofLexemes, Token.onLine_append, advance_first reads]
  simp only [Reader.addTarget, Except.bind, Draft.addTarget, advanced, Reader.advance]
  rw [Reader.finish_of_targetsOf? reached, Reader.endInstruction, complete, Builder.append, valid]
  rfl

/-- A line whose first target has an index, with a refusal for an index that is too large. -/
theorem parse_indexed (slot : Slot) (numeral : Numeral) {others : List Target}
    {target : UInt32 → Target} {fault : TargetError}
    (spells : slot.tokens (.ofNat numeral.value) =
      .word gate.name :: tokens ++ others.flatMap Target.tokens)
    (reads : numeral.value < UInt64.size →
      Reader.Reads tokens ((numeral.index fault).map target))
    (back : ∀ other ∈ others, other.CountsBack)
    (valid : ∀ index, (Instruction.on gate (target index :: others)).validate = .ok ()) :
    parse (slot.text numeral) =
      numeral.indexed (fun index => [.single (.on gate (target index :: others))]) fault := by
  rw [parse, slot.scanText_text, Numeral.indexed]
  by_cases small : numeral.value < UInt64.size
  · have here := reads small
    rw [Numeral.index] at here
    simp only [if_pos small, spells]
    by_cases fits : numeral.value < UInt32.size
    · rw [dif_pos fits] at here ⊢
      exact ofLexemes_added here back (valid _)
    · rw [dif_neg fits] at here ⊢
      exact ofLexemes_refused here _
  · rw [if_neg small, dif_neg (numeral.not_lt_of_not_lt small), if_neg small]

/-! ### The lines -/

/-- The place of the qubit in a measurement. -/
def measuredSlot (inverted : Bool) : Slot where
  before := "M " ++ Target.inversionMark inverted
  after := ""
  opening := .word "M" :: Target.inversionTokens inverted
  closing := []
  leads := by
    have word : Token.isWord ['M'] = true := by decide
    cases inverted with
    | false => exact .word word ⟨by decide, by decide⟩ (.blank rfl .nil)
    | true => exact .word word ⟨by decide, by decide⟩ (.blank rfl (.mark rfl .nil))
  scans := .nil
  apart := trivial
  oneLine := by cases inverted <;> decide

/-- The index of a measured qubit is used, refused as a target or refused as a token, depending on
    how many bits hold it. -/
theorem parse_measured (numeral : Numeral) (inverted : Bool) :
    parse ("M " ++ Target.inversionMark inverted ++ numeral.text) =
      numeral.indexed (fun id => [.single (.on (.measure .Z) [.qubit id inverted])])
        (.qubitOutOfRange (.ofNat numeral.value)) := by
  have text : (measuredSlot inverted).text numeral =
    "M " ++ Target.inversionMark inverted ++ numeral.text := String.append_empty
  have spells : (measuredSlot inverted).tokens (.ofNat numeral.value) =
      Token.word (Gate.measure .Z).name ::
        (Target.inversionTokens inverted ++ [Token.integer (.ofNat numeral.value)]) ++
          [].flatMap Target.tokens := (List.append_nil _).symm
  rw [← text]
  refine parse_indexed _ _ spells (fun small => ?_) (List.forall_mem_nil _) fun _ => rfl
  rw [← numeral.readQubit_value small]
  exact Reader.reads_qubit inverted _

/-- The place of the lookback of a record. -/
def recordSlot : Slot where
  before := "CX rec[-"
  after := "] 0"
  opening := [.word "CX", .word "rec", .leftBracket, .minus]
  closing := [.rightBracket, .integer 0]
  leads := by
    have gate : Token.isWord ['C', 'X'] = true := by decide
    have word : Token.isWord ['r', 'e', 'c'] = true := by decide
    have bracket : Token.Leads ['r', 'e', 'c', '[', '-'] [.word "rec", .leftBracket, .minus] :=
      .word word ⟨by decide, by decide⟩ (.mark rfl (.mark rfl .nil))
    exact .word gate ⟨by decide, by decide⟩ (.blank rfl bracket)
  scans := ((Target.scans_text (.plain 0)).blank rfl).mark rfl
  apart := ⟨by decide, by decide⟩
  oneLine := by decide

/-- The lookback of a record is treated as any index is, but zero counts no record back. -/
theorem parse_recorded (numeral : Numeral) :
    parse ("CX rec[-" ++ numeral.text ++ "] 0") =
      if numeral.value = 0 then .error (.invalidTarget 1 .recordNotNegative)
      else numeral.indexed
        (fun lookback => [.single (.on (.controlled .Z .X) [.record lookback, .plain 0])])
        .recordOutOfRange := by
  have spells : recordSlot.tokens (.ofNat numeral.value) =
      Token.word (Gate.controlled .Z .X).name ::
        [Token.word "rec", Token.leftBracket, Token.minus, Token.integer (.ofNat numeral.value),
          Token.rightBracket] ++
          [Target.plain 0].flatMap Target.tokens := rfl
  have reads := Reader.reads_record (.ofNat numeral.value)
  change parse (recordSlot.text numeral) = _
  split
  · rename_i zero
    have small : numeral.value < UInt64.size := zero ▸ by decide
    rw [zero] at reads spells
    rw [parse, recordSlot.scanText_text, if_pos small, zero, spells]
    exact ofLexemes_refused reads _
  · rename_i back
    refine parse_indexed _ _ spells (fun small => ?_) (by decide) fun lookback =>
      @Instruction.validate_feedbackInstruction ⟨.record lookback, 0, .X⟩ rfl
    rwa [← numeral.readRecord_value small back]

/-- The place of the index of a sweep bit. -/
def sweepSlot : Slot where
  before := "CX sweep["
  after := "] 0"
  opening := [.word "CX", .word "sweep", .leftBracket]
  closing := [.rightBracket, .integer 0]
  leads := by
    have gate : Token.isWord ['C', 'X'] = true := by decide
    have word : Token.isWord ['s', 'w', 'e', 'e', 'p'] = true := by decide
    have bracket : Token.Leads ['s', 'w', 'e', 'e', 'p', '['] [.word "sweep", .leftBracket] :=
      .word word ⟨by decide, by decide⟩ (.mark rfl .nil)
    exact .word gate ⟨by decide, by decide⟩ (.blank rfl bracket)
  scans := ((Target.scans_text (.plain 0)).blank rfl).mark rfl
  apart := ⟨by decide, by decide⟩
  oneLine := by decide

/-- The index of a sweep bit is treated as any index is. -/
theorem parse_swept (numeral : Numeral) :
    parse ("CX sweep[" ++ numeral.text ++ "] 0") =
      numeral.indexed
        (fun index => [.single (.on (.controlled .Z .X) [.sweep index, .plain 0])])
        .sweepOutOfRange := by
  have spells : sweepSlot.tokens (.ofNat numeral.value) =
      Token.word (Gate.controlled .Z .X).name ::
        [Token.word "sweep", Token.leftBracket, Token.integer (.ofNat numeral.value),
          Token.rightBracket] ++
          [Target.plain 0].flatMap Target.tokens := rfl
  change parse (sweepSlot.text numeral) = _
  refine parse_indexed _ _ spells (fun small => ?_) (by decide) fun index =>
    @Instruction.validate_feedbackInstruction ⟨.sweep index, 0, .X⟩ rfl
  rw [← numeral.readSweep_value small]
  exact Reader.reads_sweep _

/-- The place of the repetition count of a block. -/
def blockSlot : Slot where
  before := "REPEAT "
  after := " \x7b\x7d"
  opening := [.word "REPEAT"]
  closing := [.leftBrace, .rightBrace]
  leads := by
    have word : Token.isWord ['R', 'E', 'P', 'E', 'A', 'T'] = true := by decide
    exact .word word ⟨by decide, by decide⟩ (.blank rfl .nil)
  scans := ((Scans.nil.mark rfl).mark rfl).blank rfl
  apart := ⟨by decide, by decide⟩
  oneLine := by decide

/-- The count of a block is used if 64 bits hold it, and is refused as a token otherwise. -/
theorem parse_repeated (numeral : Numeral) :
    parse ("REPEAT " ++ numeral.text ++ " \x7b\x7d") =
      if fits : numeral.value < UInt64.size then .ok [.block (.ofNatLT numeral.value fits) []]
      else .error (.unreadable 1 numeral.text) := by
  have opens : opensBlock "REPEAT" = true := by decide +kernel
  have word : Reader.start.step ⟨.word "REPEAT", 1⟩ = .ok (Reader.start.moved .blockCount) := by
    rw [Reader.step, Reader.start]
    simp only [Reader.stepStatement, opens, if_true]
  change parse (blockSlot.text numeral) = _
  rw [parse, blockSlot.scanText_text]
  by_cases fits : numeral.value < UInt64.size
  · rw [if_pos fits, dif_pos fits, UInt64.ofNatLT_eq_ofNat]
    change ofLexemes (onLine 1 (.word "REPEAT" ::
      [.integer (.ofNat numeral.value), .leftBrace, .rightBrace])) = _
    rw [ofLexemes, onLine, List.map_cons, Reader.advance_more word]
    rfl
  · rw [if_neg fits, dif_neg fits]

/-- A word is as long as it likes, so a number behind the letter of an axis is refused with the
    operator and not before. -/
theorem readPauli_numeral (numeral : Numeral) (basis : Basis) (inverted : Bool) :
    readPauli (String.ofList (basis.letter :: numeral.digits)) inverted =
      (numeral.index (if numeral.value < UInt64.size then .qubitOutOfRange (.ofNat numeral.value)
        else .notATarget (String.ofList (basis.letter :: numeral.digits)))).map
          fun id => .pauli basis id inverted := by
  have digits : numeral.digits.all Char.isDigit = true := List.all_eq_true.mpr numeral.all_isDigit
  have some : numeral.digits.isEmpty = false := List.isEmpty_eq_false_iff.mpr numeral.digits_ne_nil
  simp only [readPauli, String.toList_ofList, Basis.ofChar?_letter, digits, some, Bool.not_true,
    Bool.or_false, Bool.false_eq_true, if_false]
  rw [← Numeral.value]
  by_cases small : numeral.value < UInt64.size
  · rw [if_pos small, if_pos small, numeral.readQubit_value small]
  · rw [if_neg small, if_neg small, Numeral.index, dif_neg (numeral.not_lt_of_not_lt small)]
    rfl

/-- The index of a Pauli operator is part of a word, so it is never refused as a token. -/
theorem parse_multiplied (numeral : Numeral) :
    parse ("MPP X" ++ numeral.text) =
      if fits : numeral.value < UInt32.size then
        .ok [.single (.on .measureProduct [.pauli .X (.ofNatLT numeral.value fits) false])]
      else .error (.invalidTarget 1
        (if numeral.value < UInt64.size then .qubitOutOfRange (.ofNat numeral.value)
          else .notATarget ("X" ++ numeral.text))) := by
  have word : Token.isWord ('X' :: numeral.digits) = true := by
    rw [Token.isWord, Bool.and_eq_true_iff, List.all_eq_true]
    exact ⟨by decide, fun digit member =>
      Token.continuesWord_of_isDigit (numeral.all_isDigit digit member)⟩
  have characters : ("MPP X" ++ numeral.text).toList =
      ['M', 'P', 'P'] ++ ' ' :: 'X' :: numeral.digits := by simp [Numeral.text]
  have operator : "X" ++ numeral.text = String.ofList (Basis.X.letter :: numeral.digits) := by
    apply String.toList_inj.mp
    simp [Numeral.text, Basis.letter]
  have scans : Scans ("MPP X" ++ numeral.text).toList
      (some [.word Gate.measureProduct.name, .word ("X" ++ numeral.text)]) := by
    have gate : Scans ['M', 'P', 'P'] (some [.word "MPP"]) := Scans.word (by decide)
    rw [characters, operator]
    exact gate.append ((Scans.word word).blank rfl) ⟨by decide, by decide⟩
  have scanned : Token.scanText ("MPP X" ++ numeral.text) =
      .ok (onLine 1 [.word Gate.measureProduct.name, .word ("X" ++ numeral.text)]) := by
    rw [Token.scanText_of_oneLine scans.oneLine]
    exact eq_ok_of_toOption (Token.toOption_scan scans 1)
  have reads : Reader.Reads [.word ("X" ++ numeral.text)] _ :=
    Reader.reads_word (operator ▸ Reader.ofList_letter_ne (by decide))
      (operator ▸ Reader.ofList_letter_ne (by decide))
  rw [operator, readPauli_numeral, ← operator, Numeral.index] at reads
  rw [parse, scanned]
  by_cases fits : numeral.value < UInt32.size
  · rw [dif_pos fits] at reads ⊢
    exact ofLexemes_added reads (List.forall_mem_nil _) rfl
  · rw [dif_neg fits] at reads ⊢
    exact ofLexemes_refused reads []

/-- However many digits a number has, it is read exactly or refused. An index is used if 32 bits
    hold it, and a record is counted back at least by one; otherwise the target is refused, or
    the digits are if they stand for themselves and 64 bits do not hold them. A repetition count
    is used if 64 bits hold it. -/
theorem parse_numeral (numeral : Numeral) :
    (∀ inverted, parse ("M " ++ Target.inversionMark inverted ++ numeral.text) =
      numeral.indexed (fun id => [.single (.on (.measure .Z) [.qubit id inverted])])
        (.qubitOutOfRange (.ofNat numeral.value))) ∧
    parse ("CX rec[-" ++ numeral.text ++ "] 0") =
      (if numeral.value = 0 then .error (.invalidTarget 1 .recordNotNegative)
      else numeral.indexed
        (fun lookback => [.single (.on (.controlled .Z .X) [.record lookback, .plain 0])])
        .recordOutOfRange) ∧
    parse ("CX sweep[" ++ numeral.text ++ "] 0") =
      numeral.indexed
        (fun index => [.single (.on (.controlled .Z .X) [.sweep index, .plain 0])])
        .sweepOutOfRange ∧
    parse ("MPP X" ++ numeral.text) =
      (if fits : numeral.value < UInt32.size then
        .ok [.single (.on .measureProduct [.pauli .X (.ofNatLT numeral.value fits) false])]
      else .error (.invalidTarget 1
        (if numeral.value < UInt64.size then .qubitOutOfRange (.ofNat numeral.value)
          else .notATarget ("X" ++ numeral.text)))) ∧
    parse ("REPEAT " ++ numeral.text ++ " \x7b\x7d") =
      (if fits : numeral.value < UInt64.size then .ok [.block (.ofNatLT numeral.value fits) []]
      else .error (.unreadable 1 numeral.text)) :=
  ⟨parse_measured numeral, parse_recorded numeral, parse_swept numeral, parse_multiplied numeral,
    parse_repeated numeral⟩

end Circuit

end StabilizerLayers
