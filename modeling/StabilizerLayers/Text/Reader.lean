import StabilizerLayers.Text.Token
import StabilizerLayers.Circuit.Builder

/-!
# Reading circuit text

The grammar, over tokens:

* a text is a list of statements; line ends between statements are skipped;
* a statement is the word REPEAT in any letter case, an integer, a left brace,
  statements and a right brace, or a gate name, arguments in parentheses,
  targets, and then the end of the line, a right brace or the end of the text;
* arguments are numbers with an optional minus sign, separated by commas;
* a target is a combiner, a qubit index or a Pauli operator, each with an
  optional inversion mark, or a record or sweep bit with its index in brackets.

The reader takes one token at a time. Its place says what it is in the middle
of, so the first token that the grammar does not allow is also the one that is
reported, and reading a text in two parts is the same as reading it at once.
-/

namespace StabilizerLayers

/-- An instruction that is being read. Arguments and targets are held with the
    latest first. -/
structure Draft where
  line : Nat
  name : String
  arguments : List Float
  targets : List Target

namespace Draft

/-- The instruction that has been read. -/
def instruction (draft : Draft) : Instruction where
  operator := Operator.ofName draft.name
  targets := draft.targets.reverse
  arguments := draft.arguments.reverse

/-- Adds an argument. -/
def addArgument (draft : Draft) (value : Float) : Draft :=
  { draft with arguments := value :: draft.arguments }

/-- Adds a target. -/
def addTarget (draft : Draft) (target : Target) : Draft :=
  { draft with targets := target :: draft.targets }

end Draft

/-- What the reader is in the middle of. -/
inductive Place where
  /-- Between statements. -/
  | statement
  /-- After REPEAT. -/
  | blockCount
  /-- After the repetition count. -/
  | blockOpen (repetitions : UInt64)
  /-- After a gate name. -/
  | name (draft : Draft)
  /-- After the opening parenthesis. -/
  | firstArgument (draft : Draft)
  /-- After a comma between arguments. -/
  | argument (draft : Draft)
  /-- After the minus sign of an argument. -/
  | negativeArgument (draft : Draft)
  /-- After an argument. -/
  | separator (draft : Draft)
  /-- Among the targets. -/
  | target (draft : Draft)
  /-- After an inversion mark. -/
  | inverted (draft : Draft)
  /-- After the word for a record. -/
  | recordOpen (draft : Draft)
  /-- Inside the brackets of a record. -/
  | recordIndex (draft : Draft)
  /-- After the minus sign of a record. -/
  | negativeRecordIndex (draft : Draft)
  /-- After the index of a record. -/
  | recordClose (draft : Draft) (negative : Bool) (index : UInt64)
  /-- After the word for a sweep bit. -/
  | sweepOpen (draft : Draft)
  /-- Inside the brackets of a sweep bit. -/
  | sweepIndex (draft : Draft)
  /-- After the index of a sweep bit. -/
  | sweepClose (draft : Draft) (index : UInt64)

/-- A block that has been opened: its repetition count, and what was written
    before it. -/
structure OpenBlock where
  repetitions : UInt64
  before : Builder

/-- A reader between two tokens. Open blocks are held innermost first. -/
structure Reader where
  place : Place
  enclosing : List OpenBlock
  written : Builder

/-- A 64-bit index as a 32-bit one, where it fits. -/
def index32? (index : UInt64) : Option UInt32 :=
  if index.toNat < UInt32.size then some index.toUInt32 else none

/-- Reads a qubit index. -/
def readQubit (index : UInt64) : Except TargetError Qubit :=
  match index32? index with
  | some id => .ok id
  | none => .error (.qubitOutOfRange index)

/-- Reads a word as a Pauli operator: the letter of an axis, then the digits of a
    qubit index. -/
def readPauli (word : String) (inverted : Bool) : Except TargetError Target :=
  match word.toList with
  | letter :: digits =>
    match Basis.ofChar? letter with
    | some basis =>
      if digits.isEmpty || !digits.all Char.isDigit then .error (.notATarget word)
      else
        let value := Nat.ofDigitChars 10 digits 0
        if value < UInt64.size then
          (readQubit (UInt64.ofNat value)).map fun id => .pauli basis id inverted
        else .error (.notATarget word)
    | none => .error (.notATarget word)
  | [] => .error (.notATarget word)

/-- Reads a record index with its sign. -/
def readRecord (negative : Bool) (index : UInt64) : Except TargetError Target :=
  if !negative || index == 0 then .error .recordNotNegative
  else
    match index32? index with
    | some lookback => .ok (.record lookback)
    | none => .error .recordOutOfRange

/-- Reads a sweep index. -/
def readSweep (index : UInt64) : Except TargetError Target :=
  match index32? index with
  | some bit => .ok (.sweep bit)
  | none => .error .sweepOutOfRange

/-- Whether a word opens a block. -/
def opensBlock (word : String) : Bool := word.toUpper == "REPEAT"

namespace Reader

/-- A reader before the first token. -/
def start : Reader := ⟨.statement, [], .empty⟩

/-- The reader at another place. -/
def moved (reader : Reader) (place : Place) : Reader := { reader with place := place }

/-- Refuses a token. -/
def refuse (lexeme : Lexeme) (expected : Expectation) : Except ParseError Reader :=
  .error (.unexpected lexeme.line expected lexeme.token)

/-- Ends the instruction that is being read. -/
def endInstruction (reader : Reader) (draft : Draft) : Except ParseError Reader :=
  match reader.written.append draft.instruction with
  | .error fault => .error (.invalidInstruction draft.line fault)
  | .ok written => .ok { reader with place := .statement, written := written }

/-- Adds a target to the instruction that is being read. -/
def addTarget (reader : Reader) (draft : Draft) (line : Nat) :
    Except TargetError Target → Except ParseError Reader
  | .error fault => .error (.invalidTarget line fault)
  | .ok target => .ok (reader.moved (.target (draft.addTarget target)))

/-- A token between statements. -/
def stepStatement (reader : Reader) (lexeme : Lexeme) : Except ParseError Reader :=
  match lexeme.token with
  | .newline => .ok (reader.moved .statement)
  | .rightBrace =>
    match reader.enclosing with
    | block :: outer =>
      .ok ⟨.statement, outer, block.before.appendBlock block.repetitions reader.written.circuit⟩
    | [] => refuse lexeme .instruction
  | .word word =>
    if opensBlock word then .ok (reader.moved .blockCount)
    else .ok (reader.moved (.name ⟨lexeme.line, word, [], []⟩))
  | _ => refuse lexeme .instruction

/-- A token where a number stands. -/
def stepNumber (reader : Reader) (draft : Draft) (negative : Bool) (lexeme : Lexeme) :
    Except ParseError Reader :=
  let signed (value : Float) : Float := if negative then -value else value
  let ofInteger (value : UInt64) : Float := Decimal.toFloat ⟨value.toNat, 0⟩
  match lexeme.token with
  | .integer value => .ok (reader.moved (.separator (draft.addArgument (signed (ofInteger value)))))
  | .decimal value => .ok (reader.moved (.separator (draft.addArgument (signed value))))
  | _ => refuse lexeme .number

/-- A token where an argument stands. -/
def stepArgument (reader : Reader) (draft : Draft) (lexeme : Lexeme) : Except ParseError Reader :=
  match lexeme.token with
  | .minus => .ok (reader.moved (.negativeArgument draft))
  | _ => reader.stepNumber draft false lexeme

/-- A token among the targets. -/
def stepTarget (reader : Reader) (draft : Draft) (lexeme : Lexeme) : Except ParseError Reader :=
  match lexeme.token with
  | .newline => reader.endInstruction draft
  | .rightBrace =>
    match reader.endInstruction draft with
    | .error fault => .error fault
    | .ok ended => ended.stepStatement lexeme
  | .star => reader.addTarget draft lexeme.line (.ok .combiner)
  | .integer index =>
    reader.addTarget draft lexeme.line ((readQubit index).map fun id => .qubit id false)
  | .exclamation => .ok (reader.moved (.inverted draft))
  | .word "rec" => .ok (reader.moved (.recordOpen draft))
  | .word "sweep" => .ok (reader.moved (.sweepOpen draft))
  | .word word => reader.addTarget draft lexeme.line (readPauli word false)
  | _ => refuse lexeme .target

/-- Takes one token. -/
def step (reader : Reader) (lexeme : Lexeme) : Except ParseError Reader :=
  match reader.place, lexeme.token with
  | .statement, _ => reader.stepStatement lexeme
  | .blockCount, .integer repetitions => .ok (reader.moved (.blockOpen repetitions))
  | .blockCount, _ => refuse lexeme .integer
  | .blockOpen repetitions, .leftBrace =>
    .ok ⟨.statement, ⟨repetitions, reader.written⟩ :: reader.enclosing, .empty⟩
  | .blockOpen _, _ => refuse lexeme (.token .leftBrace)
  | .name draft, .leftParenthesis => .ok (reader.moved (.firstArgument draft))
  | .name draft, _ => reader.stepTarget draft lexeme
  | .firstArgument draft, .rightParenthesis => .ok (reader.moved (.target draft))
  | .firstArgument draft, _ => reader.stepArgument draft lexeme
  | .argument draft, _ => reader.stepArgument draft lexeme
  | .negativeArgument draft, _ => reader.stepNumber draft true lexeme
  | .separator draft, .rightParenthesis => .ok (reader.moved (.target draft))
  | .separator draft, .comma => .ok (reader.moved (.argument draft))
  | .separator _, _ => refuse lexeme (.token .comma)
  | .target draft, _ => reader.stepTarget draft lexeme
  | .inverted draft, .integer index =>
    reader.addTarget draft lexeme.line ((readQubit index).map fun id => .qubit id true)
  | .inverted draft, .word word => reader.addTarget draft lexeme.line (readPauli word true)
  | .inverted _, _ => refuse lexeme .inverted
  | .recordOpen draft, .leftBracket => .ok (reader.moved (.recordIndex draft))
  | .recordOpen _, _ => refuse lexeme (.token .leftBracket)
  | .recordIndex draft, .minus => .ok (reader.moved (.negativeRecordIndex draft))
  | .recordIndex draft, .integer index => .ok (reader.moved (.recordClose draft false index))
  | .recordIndex _, _ => refuse lexeme .integer
  | .negativeRecordIndex draft, .integer index =>
    .ok (reader.moved (.recordClose draft true index))
  | .negativeRecordIndex _, _ => refuse lexeme .integer
  | .recordClose draft negative index, .rightBracket =>
    reader.addTarget draft lexeme.line (readRecord negative index)
  | .recordClose _ _ _, _ => refuse lexeme (.token .rightBracket)
  | .sweepOpen draft, .leftBracket => .ok (reader.moved (.sweepIndex draft))
  | .sweepOpen _, _ => refuse lexeme (.token .leftBracket)
  | .sweepIndex draft, .integer index => .ok (reader.moved (.sweepClose draft index))
  | .sweepIndex _, _ => refuse lexeme .integer
  | .sweepClose draft index, .rightBracket =>
    reader.addTarget draft lexeme.line (readSweep index)
  | .sweepClose _ _, _ => refuse lexeme (.token .rightBracket)

/-- The circuit, if every block has been closed. -/
def closed (reader : Reader) : Except ParseError Circuit :=
  match reader.enclosing with
  | [] => .ok reader.written.circuit
  | _ :: _ => .error (.unexpectedEnd .blockEnd)

/-- Takes the end of the text. -/
def finish (reader : Reader) : Except ParseError Circuit :=
  match reader.place with
  | .statement => reader.closed
  | .name draft | .target draft =>
    match reader.endInstruction draft with
    | .error fault => .error fault
    | .ok ended => ended.closed
  | .blockCount | .recordIndex _ | .negativeRecordIndex _ | .sweepIndex _ =>
    .error (.unexpectedEnd .integer)
  | .blockOpen _ => .error (.unexpectedEnd (.token .leftBrace))
  | .firstArgument _ | .argument _ | .negativeArgument _ => .error (.unexpectedEnd .number)
  | .separator _ => .error (.unexpectedEnd (.token .comma))
  | .inverted _ => .error (.unexpectedEnd .inverted)
  | .recordOpen _ | .sweepOpen _ => .error (.unexpectedEnd (.token .leftBracket))
  | .recordClose _ _ _ | .sweepClose _ _ => .error (.unexpectedEnd (.token .rightBracket))

/-- Takes tokens one after the other. -/
def advance (reader : Reader) : List Lexeme → Except ParseError Reader
  | [] => .ok reader
  | lexeme :: rest =>
    match reader.step lexeme with
    | .error fault => .error fault
    | .ok next => next.advance rest

end Reader

namespace Circuit

/-- Reads a circuit from tokens. -/
def ofLexemes (lexemes : List Lexeme) : Except ParseError Circuit :=
  match Reader.start.advance lexemes with
  | .error fault => .error fault
  | .ok reader => reader.finish

/-- Reads a circuit from text. -/
def parse (source : String) : Except ParseError Circuit :=
  match Token.scanText source with
  | .error fault => .error fault
  | .ok lexemes => ofLexemes lexemes

end Circuit

end StabilizerLayers
