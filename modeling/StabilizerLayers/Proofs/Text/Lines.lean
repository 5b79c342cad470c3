import Mathlib.Data.List.Forall2
import StabilizerLayers.Proofs.Text.Scanning
import StabilizerLayers.Proofs.Trace.Reading
import StabilizerLayers.Text.Printer

/-!
# Tokens of written circuits

What a scanner makes of the text of a circuit, told from the circuit itself: the tokens
of its targets, arguments and instructions, and from these one list of tokens for each of
its lines. Indentation leaves no token.

The one thing that cannot always be read back is an argument. A whole number is written
with all its digits, and these have to fit into 64 bits to be an integer.
-/

namespace StabilizerLayers

open Token (Scans Apart joined)

/-! ### Indices -/

/-- A number is written with its decimal digits. -/
theorem toList_toString (number : Nat) : (toString number).toList = Nat.toDigits 10 number := by
  rw [Nat.toString_eq_ofList_toDigits, String.toList_ofList]

/-- Decimal digits are digits to the scanner. -/
theorem isDigit_of_mem_toDigits {number : Nat} {character : Char}
    (member : character ∈ Nat.toDigits 10 number) : character.isDigit = true :=
  Nat.isDigit_of_mem_toDigits (by decide) (by decide) member

/-- The digits of a 64-bit number are scanned as that number. -/
theorem Token.Scans.index (index : UInt64) :
    Scans (Nat.toDigits 10 index.toNat) (some [.integer index]) := by
  have scans : Scans (Nat.toDigits 10 index.toNat ++ Decimal.pointed [])
      ((Token.number? (Nat.toDigits 10 index.toNat) []).map ([·])) :=
    Scans.number Nat.toDigits_ne_nil (fun _ => isDigit_of_mem_toDigits)
      (fun _ none => absurd none List.not_mem_nil)
  rw [Decimal.pointed, List.append_nil, Token.number?, if_pos rfl, Nat.ofDigitChars_ten_toDigits,
    if_pos index.toNat_lt, UInt64.ofNat_toNat] at scans
  exact scans

/-! ### Targets -/

namespace Target

/-- Tokens of an inversion mark. -/
def inversionTokens (inverted : Bool) : List Token := if inverted then [.exclamation] else []

/-- Tokens of a target. -/
def tokens : Target → List Token
  | qubit id inverted => inversionTokens inverted ++ [.integer id.toUInt64]
  | record lookback =>
    [.word "rec", .leftBracket, .minus, .integer lookback.toUInt64, .rightBracket]
  | sweep index => [.word "sweep", .leftBracket, .integer index.toUInt64, .rightBracket]
  | pauli basis id inverted =>
    inversionTokens inverted ++ [.word (String.ofList (basis.letter :: Nat.toDigits 10 id.toNat))]
  | combiner => [.star]

/-- An inversion mark is scanned as such in front of what it inverts. -/
theorem scans_inverted {characters : List Char} {tokens : List Token}
    (scans : Scans characters (some tokens)) (inverted : Bool) :
    Scans ((inversionMark inverted).toList ++ characters)
      (some (inversionTokens inverted ++ tokens)) := by
  cases inverted with
  | false => exact scans
  | true =>
    have marked : Scans ('!' :: characters) (some (.exclamation :: tokens)) := scans.mark rfl
    exact marked

/-- The digits of a 32-bit number are scanned as that number. -/
theorem scans_index (index : UInt32) :
    Scans (Nat.toDigits 10 index.toNat) (some [.integer index.toUInt64]) := by
  have scans := Scans.index index.toUInt64
  rwa [UInt32.toNat_toUInt64] at scans

/-- The letter of an axis and the digits of a qubit are scanned as one word. -/
theorem scans_pauli (basis : Basis) (id : Qubit) :
    Scans (basis.letter :: Nat.toDigits 10 id.toNat)
      (some [.word (String.ofList (basis.letter :: Nat.toDigits 10 id.toNat))]) := by
  apply Scans.word
  have starts : Token.startsWord basis.letter = true := by cases basis <;> decide
  rw [Token.isWord, starts, Bool.true_and, List.all_eq_true]
  intro character member
  exact Token.continuesWord_of_isDigit (isDigit_of_mem_toDigits member)

/-- The text of a target is scanned as the tokens of the target. -/
theorem scans_text (target : Target) : Scans target.text.toList (some target.tokens) := by
  have close : Scans [']'] (some [.rightBracket]) := Scans.nil.mark rfl
  have apart : Apart [']'] := ⟨by decide, by decide⟩
  cases target with
  | qubit id inverted =>
    rw [text, String.toList_append, toList_toString]
    exact scans_inverted (scans_index id) inverted
  | record lookback =>
    have open? : "rec[-".toList = ['r', 'e', 'c', '[', '-'] := rfl
    have word : Scans ['r', 'e', 'c'] (some [.word "rec"]) := Scans.word (by decide)
    have index : Scans ('[' :: '-' :: (Nat.toDigits 10 lookback.toNat ++ [']']))
        (some [.leftBracket, .minus, .integer lookback.toUInt64, .rightBracket]) :=
      (((scans_index lookback).append close apart).mark rfl).mark rfl
    rw [text, String.toList_append, String.toList_append, toList_toString, open?]
    exact word.append index ⟨by decide, by decide⟩
  | sweep index =>
    have open? : "sweep[".toList = ['s', 'w', 'e', 'e', 'p', '['] := rfl
    have word : Scans ['s', 'w', 'e', 'e', 'p'] (some [.word "sweep"]) := Scans.word (by decide)
    have bracketed : Scans ('[' :: (Nat.toDigits 10 index.toNat ++ [']']))
        (some [.leftBracket, .integer index.toUInt64, .rightBracket]) :=
      ((scans_index index).append close apart).mark rfl
    rw [text, String.toList_append, String.toList_append, toList_toString, open?]
    exact word.append bracketed ⟨by decide, by decide⟩
  | pauli basis id inverted =>
    have letter : basis.letter.toString.toList = [basis.letter] := String.toList_singleton _
    rw [text, String.toList_append, String.toList_append, toList_toString, List.append_assoc,
      letter]
    exact scans_inverted (scans_pauli basis id) inverted
  | combiner => exact Scans.nil.mark rfl

end Target

/-! ### Arguments -/

namespace Binary64

/-- The token of a nonnegative double. -/
def magnitudeToken? (bits : Nat) : Option Token :=
  if bits < infinityBits then
    Token.number? (writtenDecimal bits).wholeDigits (writtenDecimal bits).fractionDigits
  else some (.word "inf")

/-- Tokens of a double. -/
def tokens? (value : Float) : Option (List Token) :=
  if infinityBits < magnitudeBits value then some [.word "NaN"]
  else if isNegative value then
    joined (some [.minus]) ((magnitudeToken? (magnitudeBits value)).map ([·]))
  else (magnitudeToken? (magnitudeBits value)).map ([·])

/-- The text of a nonnegative double is scanned as the token of the double. -/
theorem scans_magnitudeText {bits : Nat} (number : bits ≤ infinityBits) :
    Scans (magnitudeText bits).toList ((magnitudeToken? bits).map ([·])) := by
  by_cases finite : bits < infinityBits
  · rw [toList_magnitudeText finite, magnitudeToken?, if_pos finite]
    exact Scans.number (Decimal.wholeDigits_ne_nil _)
      (fun _ => Decimal.isDigit_of_mem_wholeDigits) (fun _ => Decimal.isDigit_of_mem_fractionDigits)
  · obtain rfl : bits = infinityBits := Nat.le_antisymm number (Nat.not_lt.mp finite)
    rw [magnitudeText, if_neg (by decide), if_pos rfl, magnitudeToken?, if_neg finite]
    exact Scans.word (by decide)

/-- The text of a double is scanned as the tokens of the double. -/
theorem scans_text (value : Float) : Scans (text value).toList (tokens? value) := by
  simp only [text, tokens?]
  by_cases noNumber : infinityBits < magnitudeBits value
  · rw [if_pos noNumber, if_pos noNumber]
    exact Scans.word (by decide)
  · have magnitude := scans_magnitudeText (Nat.not_lt.mp noNumber)
    rw [if_neg noNumber, if_neg noNumber]
    cases isNegative value with
    | false =>
      rw [if_neg Bool.false_ne_true, if_neg Bool.false_ne_true]
      exact magnitude
    | true =>
      rw [if_pos rfl, if_pos rfl, String.toList_append]
      exact magnitude.mark rfl

end Binary64

namespace Instruction

/-- Tokens of the arguments behind the first one, up to the closing parenthesis. -/
def laterArgumentTokens? : List Float → Option (List Token)
  | [] => some [.rightParenthesis]
  | value :: rest =>
    joined (some [.comma]) (joined (Binary64.tokens? value) (laterArgumentTokens? rest))

/-- Tokens of arguments. -/
def argumentTokens? : List Float → Option (List Token)
  | [] => some []
  | value :: rest =>
    joined (some [.leftParenthesis]) (joined (Binary64.tokens? value) (laterArgumentTokens? rest))

/-- Text of the arguments behind the first one, up to the closing parenthesis. -/
def laterArgumentsText : List Float → List Char
  | [] => [')']
  | value :: rest => ',' :: ' ' :: ((Binary64.text value).toList ++ laterArgumentsText rest)

/-- Arguments in a row are the first one and a comma with a blank before each other one. -/
theorem intercalate_append (value : Float) (rest : List Float) :
    [',', ' '].intercalate (((value :: rest).map Binary64.text).map String.toList) ++ [')'] =
      (Binary64.text value).toList ++ laterArgumentsText rest := by
  induction rest generalizing value with
  | nil =>
    rw [List.map_singleton, List.map_singleton, List.intercalate_singleton, laterArgumentsText]
  | cons next others inductionHypothesis =>
    have later := inductionHypothesis next
    rw [List.map_cons, List.map_cons] at later ⊢
    rw [List.map_cons, List.map_cons, List.intercalate_cons_cons, List.append_assoc, later,
      laterArgumentsText, List.append_assoc]
    rfl

/-- The text of arguments is a parenthesis, the first one and the text of the later ones. -/
theorem toList_argumentsText (value : Float) (rest : List Float) :
    (argumentsText (value :: rest)).toList =
      '(' :: ((Binary64.text value).toList ++ laterArgumentsText rest) := by
  rw [← intercalate_append, argumentsText, List.isEmpty_cons,
    if_neg Bool.false_ne_true, String.toList_append,
    String.toList_append, String.toList_intercalate]
  rfl

/-- No token reaches into the text of later arguments. -/
theorem apart_laterArgumentsText (arguments : List Float) :
    Apart (laterArgumentsText arguments) := by
  cases arguments with
  | nil => exact ⟨by decide, by decide⟩
  | cons value rest => exact ⟨by decide, by decide⟩

/-- The text of later arguments is scanned as their tokens. -/
theorem scans_laterArguments (arguments : List Float) :
    Scans (laterArgumentsText arguments) (laterArgumentTokens? arguments) := by
  induction arguments with
  | nil => exact Scans.nil.mark rfl
  | cons value rest inductionHypothesis =>
    exact (((Binary64.scans_text value).append inductionHypothesis
      (apart_laterArgumentsText rest)).blank rfl).mark rfl

/-- The text of arguments is scanned as their tokens. -/
theorem scans_arguments (arguments : List Float) :
    Scans (argumentsText arguments).toList (argumentTokens? arguments) := by
  cases arguments with
  | nil => exact Scans.nil
  | cons value rest =>
    rw [toList_argumentsText]
    exact ((Binary64.scans_text value).append (scans_laterArguments rest)
      (apart_laterArgumentsText rest)).mark rfl

/-- No token reaches into the text of arguments. -/
theorem apart_argumentsText (arguments : List Float) :
    Apart (argumentsText arguments).toList := by
  cases arguments with
  | nil => trivial
  | cons value rest =>
    rw [toList_argumentsText]
    exact ⟨by decide, by decide⟩

/-! ### Instructions -/

/-- Targets are written apart from any target but a combiner. -/
theorem apart_targetsText {previous : Target} (noCombiner : previous ≠ .combiner)
    (targets : List Target) : Apart (targetsText previous targets).toList := by
  cases targets with
  | nil => trivial
  | cons target rest =>
    rw [targetsText, String.toList_append, String.toList_append]
    by_cases combiner : target = .combiner
    · subst combiner
      exact ⟨by decide, by decide⟩
    · have blank : (target == .combiner || previous == .combiner) = false := by
        rw [beq_false_of_ne combiner, beq_false_of_ne noCombiner]
        rfl
      rw [blank]
      exact ⟨by decide, by decide⟩

/-- A target with those that follow it. -/
theorem scans_target {target : Target} {rest : List Target}
    (later : Scans (targetsText target rest).toList (some (rest.flatMap Target.tokens))) :
    Scans (target.text.toList ++ (targetsText target rest).toList)
      (some ((target :: rest).flatMap Target.tokens)) := by
  by_cases combiner : target = .combiner
  · subst combiner
    exact later.mark rfl
  · exact target.scans_text.append later (apart_targetsText combiner rest)

/-- Targets behind another one are scanned as their tokens, blanks between them or not. -/
theorem scans_targetsText (previous : Target) (targets : List Target) :
    Scans (targetsText previous targets).toList (some (targets.flatMap Target.tokens)) := by
  induction targets generalizing previous with
  | nil => exact Scans.nil
  | cons target rest inductionHypothesis =>
    have scans := scans_target (inductionHypothesis target)
    rw [targetsText, String.toList_append, String.toList_append, List.append_assoc]
    split
    · exact scans
    · exact scans.blank rfl

/-- The text of all targets is scanned as their tokens. -/
theorem scans_allTargetsText (targets : List Target) :
    Scans (allTargetsText targets).toList (some (targets.flatMap Target.tokens)) := by
  cases targets with
  | nil => exact Scans.nil
  | cons target rest =>
    rw [allTargetsText, String.toList_append, String.toList_append, List.append_assoc]
    exact (scans_target (scans_targetsText target rest)).blank rfl

/-- No token reaches into the text of targets. -/
theorem apart_allTargetsText (targets : List Target) : Apart (allTargetsText targets).toList := by
  cases targets with
  | nil => trivial
  | cons target rest =>
    rw [allTargetsText, String.toList_append, String.toList_append]
    exact ⟨by decide, by decide⟩

/-- Tokens of an instruction. -/
def tokens? (instruction : Instruction) : Option (List Token) :=
  joined (some [.word instruction.operator.name])
    (joined (argumentTokens? instruction.arguments)
      (some (instruction.targets.flatMap Target.tokens)))

/-- The text of an instruction is scanned as the tokens of the instruction if its name is a word. -/
theorem scans_text {instruction : Instruction}
    (word : Token.isWord instruction.operator.name.toList = true) :
    Scans instruction.text.toList instruction.tokens? := by
  have name := Scans.word word
  have rest := (scans_arguments instruction.arguments).append
    (scans_allTargetsText instruction.targets) (apart_allTargetsText _)
  rw [String.ofList_toList] at name
  rw [text, String.toList_append, String.toList_append, List.append_assoc]
  exact name.append rest ((apart_argumentsText _).append (apart_allTargetsText _))

end Instruction

/-! ### Lines -/

/-- The name of every gate is one word. -/
theorem Gate.isWord_name (gate : Gate) : Token.isWord gate.name.toList = true := by
  have words : ∀ listed ∈ Gate.all, Token.isWord listed.name.toList = true := by decide +kernel
  exact words gate (mem_all gate)

mutual

/-- Tokens of the lines of one operation. -/
def Operation.tokenLines : Operation → List (Option (List Token))
  | .single instruction => [instruction.tokens?]
  | .block repetitions body =>
    some [.word "REPEAT", .integer repetitions, .leftBrace] ::
      (Operation.tokenLinesAll body ++ [some [.rightBrace]])

/-- Tokens of the lines of a list of operations. -/
def Operation.tokenLinesAll : List Operation → List (Option (List Token))
  | [] => []
  | first :: rest => first.tokenLines ++ Operation.tokenLinesAll rest

end

/-- The line that opens a block is scanned as a word, the count and a brace. -/
theorem scans_blockOpening (repetitions : UInt64) :
    Scans ("REPEAT " ++ toString repetitions.toNat ++ " \x7b").toList
      (some [.word "REPEAT", .integer repetitions, .leftBrace]) := by
  have word : Scans ['R', 'E', 'P', 'E', 'A', 'T'] (some [.word "REPEAT"]) := Scans.word (by decide)
  have brace : Scans [' ', '\x7b'] (some [.leftBrace]) := (Scans.nil.mark rfl).blank rfl
  have count : Scans (' ' :: (Nat.toDigits 10 repetitions.toNat ++ [' ', '\x7b']))
      (some [.integer repetitions, .leftBrace]) :=
    ((Scans.index repetitions).append brace ⟨by decide, by decide⟩).blank rfl
  rw [String.toList_append, String.toList_append, toList_toString]
  exact word.append count ⟨by decide, by decide⟩

namespace Operation

mutual

/-- The lines of an operation are scanned as its lines of tokens. -/
theorem scans_lines {operation : Operation} (depth : Nat)
    (words : ∀ instruction ∈ operation.instructions,
      Token.isWord instruction.operator.name.toList = true) :
    List.Forall₂ (fun line tokens? => Scans line.2.toList tokens?) (operation.lines depth)
      operation.tokenLines := by
  cases operation with
  | single instruction =>
    exact .cons (Instruction.scans_text (words instruction (.head _))) .nil
  | block repetitions body =>
    have closing : Scans "\x7d".toList (some [.rightBrace]) := by
      change Scans ['\x7d'] _
      exact Scans.nil.mark rfl
    exact .cons (scans_blockOpening repetitions)
      (List.rel_append (scans_linesAll (depth + 1) words) (.cons closing .nil))

/-- Each line of a circuit is read as its tokens. -/
theorem scans_linesAll {operations : List Operation} (depth : Nat)
    (words : ∀ instruction ∈ instructionsAll operations,
      Token.isWord instruction.operator.name.toList = true) :
    List.Forall₂ (fun line tokens? => Scans line.2.toList tokens?) (linesAll depth operations)
      (tokenLinesAll operations) := by
  cases operations with
  | nil => exact .nil
  | cons first rest =>
    exact List.rel_append
      (scans_lines depth fun instruction member =>
        words instruction (List.mem_append_left _ member))
      (scans_linesAll depth fun instruction member =>
        words instruction (List.mem_append_right _ member))

end

end Operation

/-- Indentation does not change what a line is scanned as. -/
theorem scans_indented {text : String} {tokens? : Option (List Token)}
    (scans : Scans text.toList tokens?) (depth : Nat) :
    Scans (Circuit.indentation depth ++ text).toList tokens? := by
  rw [String.toList_append, Circuit.indentation, String.toList_ofList]
  generalize 4 * depth = blanks
  induction blanks with
  | zero => exact scans
  | succ blanks inductionHypothesis =>
    rw [List.replicate_succ]
    exact inductionHypothesis.blank rfl

/-- A text is made of its indented lines, each with an end. -/
theorem Circuit.toList_text (circuit : Circuit) :
    circuit.text.toList = ((Operation.linesAll 0 circuit).map fun line =>
      (indentation line.1 ++ line.2).toList).flatMap (· ++ ['\n']) := by
  rw [text, String.toList_join, List.flatMap_map, List.flatMap_map]
  refine congrArg (List.flatMap · _) (funext fun line => ?_)
  exact String.toList_append

/-- The text of a circuit is scanned line by line. -/
theorem Circuit.toOption_scanText {circuit : Circuit}
    (words : ∀ instruction ∈ Operation.instructionsAll circuit,
      Token.isWord instruction.operator.name.toList = true) :
    (Token.scanText circuit.text).toOption =
      Token.numbered? 1 (Operation.tokenLinesAll circuit) := by
  have scans : List.Forall₂ Scans
      ((Operation.linesAll 0 circuit).map fun line => (indentation line.1 ++ line.2).toList)
      (Operation.tokenLinesAll circuit) := by
    rw [List.forall₂_map_left_iff]
    exact (Operation.scans_linesAll 0 words).imp fun line _ scans => scans_indented scans line.1
  rw [Token.scanText, toList_text, Token.splitLines_flatMap scans, Token.toOption_scanLines scans]

end StabilizerLayers
