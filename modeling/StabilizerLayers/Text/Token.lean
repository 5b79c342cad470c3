import StabilizerLayers.Instruction

/-!
# Tokens of circuit text

Circuit text is read line by line, so the end of a line is a token of its own
and no token reaches across it. Blanks and comments leave no token.

A reading takes the longest token that starts at a character: a number takes a
fraction and an exponent when they are complete, and a word takes all letters,
digits and underscores. What cannot start a token, and an integer that does not
fit into 64 bits, is reported with the line on which it stands.

`ParseError` holds the causes for which text is refused and their wording.
-/

namespace StabilizerLayers

/-- A token of circuit text. -/
inductive Token where
  /-- The end of a line. -/
  | newline
  /-- A number with a point or an exponent. -/
  | decimal (value : Float)
  /-- A number of digits only. -/
  | integer (value : UInt64)
  /-- A name. -/
  | word (text : String)
  | minus
  | exclamation
  | star
  | leftParenthesis
  | rightParenthesis
  | leftBracket
  | rightBracket
  | leftBrace
  | rightBrace
  | comma

/-- How a token is named in a message. -/
def Token.text : Token → String
  | newline => "end of line"
  | decimal value => Binary64.text value
  | integer value => toString value.toNat
  | word text => text
  | minus => "-"
  | exclamation => "!"
  | star => "*"
  | leftParenthesis => "("
  | rightParenthesis => ")"
  | leftBracket => "["
  | rightBracket => "]"
  | leftBrace => "\x7b"
  | rightBrace => "\x7d"
  | comma => ","

/-- A token and the line on which it stands, counted from one. -/
structure Lexeme where
  token : Token
  line : Nat

/-- What the grammar allows at a place. -/
inductive Expectation where
  | instruction
  | integer
  | number
  | target
  /-- The qubit or operator that an inversion mark belongs to. -/
  | inverted
  /-- The brace that closes a block. -/
  | blockEnd
  /-- One particular token. -/
  | token (wanted : Token)

/-- How an expectation is named where another token stands. -/
def Expectation.text : Expectation → String
  | instruction => "instruction"
  | integer => "integer"
  | number => "number"
  | target => "target"
  | inverted => "qubit after '!'"
  | blockEnd => "'\x7d' closing REPEAT block"
  | token wanted => wanted.text

/-- How an expectation is named where the text ends. -/
def Expectation.endText : Expectation → String
  | token wanted => "expected " ++ wanted.text
  | other => other.text

/-- Why a target is refused. -/
inductive TargetError where
  /-- The index does not fit into 32 bits. -/
  | qubitOutOfRange (index : UInt64)
  /-- The word is no Pauli operator on a qubit. -/
  | notATarget (word : String)
  /-- The sweep index does not fit into 32 bits. -/
  | sweepOutOfRange
  /-- A record is counted back, so its index is below zero. -/
  | recordNotNegative
  /-- The lookback does not fit into 32 bits. -/
  | recordOutOfRange
deriving DecidableEq

/-- Wording of a refused target. -/
def TargetError.message : TargetError → String
  | qubitOutOfRange index => "qubit index " ++ toString index.toNat ++ " out of range"
  | notATarget word => "'" ++ word ++ "'"
  | sweepOutOfRange => "sweep index out of range"
  | recordNotNegative => "measurement record lookback must be negative"
  | recordOutOfRange => "measurement record lookback out of range"

/-- Why circuit text is refused. -/
inductive ParseError where
  /-- No token starts here, or the number is too large. -/
  | unreadable (line : Nat) (text : String)
  /-- The grammar allows something else here. -/
  | unexpected (line : Nat) (expected : Expectation) (found : Token)
  /-- The text ends too early. -/
  | unexpectedEnd (expected : Expectation)
  /-- A target is malformed. -/
  | invalidTarget (line : Nat) (fault : TargetError)
  /-- An instruction is refused. -/
  | invalidInstruction (line : Nat) (fault : InstructionError)

namespace ParseError

/-- Wording of a refusal. -/
def message : ParseError → String
  | unreadable line text =>
    "Lexer error at line " ++ toString line ++ ": Invalid token: '" ++ text ++ "'"
  | unexpected line expected found =>
    "Unexpected token at line " ++ toString line ++ ": expected " ++ expected.text ++
      ", found " ++ found.text
  | unexpectedEnd expected => "Unexpected end of input: " ++ expected.endText
  | invalidTarget line fault => "Invalid target at line " ++ toString line ++ ": " ++ fault.message
  | invalidInstruction line fault =>
    "Invalid instruction at line " ++ toString line ++ ": " ++ fault.message

/-- The line of a refusal; the end of the text has none. -/
def line? : ParseError → Option Nat
  | unreadable line _ | unexpected line _ _ | invalidTarget line _
  | invalidInstruction line _ => some line
  | unexpectedEnd _ => none

end ParseError

namespace Token

/-- What starts at a character. -/
inductive Reading where
  /-- Nothing: the character is skipped. -/
  | blank
  /-- A comment, which takes the rest of the line. -/
  | comment
  /-- A token that takes this many characters after the first. -/
  | token (token : Token) (more : Nat)
  /-- Nothing that can be read. -/
  | unreadable (text : String)

/-- Whether a character is skipped between tokens. -/
def isBlank (character : Char) : Bool :=
  character == ' ' || character == '\t' || character == '\r'

/-- Whether a character can start a word. -/
def startsWord (character : Char) : Bool := character.isAlpha || character == '_'

/-- Whether a character can continue a word. -/
def continuesWord (character : Char) : Bool := character.isAlphanum || character == '_'

/-- The tokens of one character. -/
def mark? : Char → Option Token
  | '-' => some minus
  | '!' => some exclamation
  | '*' => some star
  | '(' => some leftParenthesis
  | ')' => some rightParenthesis
  | '[' => some leftBracket
  | ']' => some rightBracket
  | '\x7b' => some leftBrace
  | '\x7d' => some rightBrace
  | ',' => some comma
  | _ => none

/-- Reads a number that starts with these digits. A point makes it a decimal,
    with or without digits behind it; so does a complete exponent. -/
def readNumber (characters : List Char) : Reading :=
  let (whole, afterWhole) := Decimal.spanDigits characters
  let taken (rest : List Char) : Nat := characters.length - rest.length - 1
  match afterWhole with
  | '.' :: afterPoint =>
    let (fraction, afterFraction) := Decimal.spanDigits afterPoint
    match Decimal.exponent? afterFraction with
    | some (power, rest) =>
      .token (.decimal (Decimal.ofDigits whole fraction power).toFloat) (taken rest)
    | none =>
      .token (.decimal (Decimal.ofDigits whole fraction 0).toFloat) (taken afterFraction)
  | _ =>
    match Decimal.exponent? afterWhole with
    | some (power, rest) =>
      .token (.decimal (Decimal.ofDigits whole [] power).toFloat) (taken rest)
    | none =>
      let value := Nat.ofDigitChars 10 whole 0
      if value < UInt64.size then .token (.integer (UInt64.ofNat value)) (taken afterWhole)
      else .unreadable (String.ofList whole)

/-- What starts at the first of these characters of a line. -/
def read (first : Char) (rest : List Char) : Reading :=
  if isBlank first then .blank
  else if first == '#' then .comment
  else if first.isDigit then readNumber (first :: rest)
  else if startsWord first then
    let more := rest.takeWhile continuesWord
    .token (.word (String.ofList (first :: more))) more.length
  else
    match mark? first with
    | some token => .token token 0
    | none => .unreadable first.toString

/-- Tokens of a line, after skipping the characters of a token that has been
    read already. -/
def scan (line : Nat) : Nat → List Char → Except ParseError (List Lexeme)
  | _, [] => .ok []
  | skipped + 1, _ :: rest => scan line skipped rest
  | 0, first :: rest =>
    match read first rest with
    | .blank => scan line 0 rest
    | .comment => .ok []
    | .unreadable text => .error (.unreadable line text)
    | .token token more =>
      match scan line more rest with
      | .error fault => .error fault
      | .ok lexemes => .ok (⟨token, line⟩ :: lexemes)

/-- Cuts text at line ends; `current` holds the line so far, latest first. -/
def splitLines (current : List Char) : List Char → List (List Char)
  | [] => [current.reverse]
  | '\n' :: rest => current.reverse :: splitLines [] rest
  | character :: rest => splitLines (character :: current) rest

/-- Tokens of lines counted from `number`, with the ends between them. -/
def scanLines (number : Nat) : List (List Char) → Except ParseError (List Lexeme)
  | [] => .ok []
  | [last] => scan number 0 last
  | line :: rest =>
    match scan number 0 line with
    | .error fault => .error fault
    | .ok lexemes =>
      match scanLines (number + 1) rest with
      | .error fault => .error fault
      | .ok others => .ok (lexemes ++ ⟨newline, number⟩ :: others)

/-- Tokens of a text. The first unreadable place refuses the whole text. -/
def scanText (source : String) : Except ParseError (List Lexeme) :=
  scanLines 1 (splitLines [] source.toList)

end Token

end StabilizerLayers
