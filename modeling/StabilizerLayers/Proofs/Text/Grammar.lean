import StabilizerLayers.Text.Reader

/-!
# The grammar of circuit text

Derivations of circuit text, as trees. A tree says which tokens it derives and which part
of a circuit it stands for, and it carries what the grammar asks of it: an index fits into
32 bits, a record is counted back, the name of an instruction opens no block, and an
instruction passes its checks. There is no tree for anything else.

Tokens have at most one derivation. A phrase of fixed shape is told from any other by its
first tokens; a list of phrases ends where a token stands that can begin none of them. For
the targets of an instruction these are the end of the line, a right brace and the end of
the text, and for the statements of a block the last two.
-/

namespace StabilizerLayers

namespace Grammar

/-! ### Phrases -/

/-- A token that may be left out. -/
def optional (token : Token) (present : Bool) : List Token := if present then [token] else []

/-- A number with an optional minus sign. -/
inductive Number where
  | integer (negative : Bool) (value : UInt64)
  | decimal (negative : Bool) (value : Float)

namespace Number

/-- Tokens of a number. -/
def tokens : Number → List Token
  | integer negative value => optional .minus negative ++ [.integer value]
  | decimal negative value => optional .minus negative ++ [.decimal value]

/-- The argument that a number stands for; an integer is rounded. -/
def value : Number → Float
  | integer negative value =>
    if negative then -(Decimal.toFloat ⟨value.toNat, 0⟩) else Decimal.toFloat ⟨value.toNat, 0⟩
  | decimal negative value => if negative then -value else value

end Number

/-- A Pauli operator as one word: the letter of an axis in either case, then the decimal
    digits of an index below 2^32, perhaps with zeros in front. -/
structure PauliWord where
  letter : Char
  digits : List Char
  basis : Basis
  id : UInt32
  axis : letter.toUpper = basis.letter
  digits_ne_nil : digits ≠ []
  all_isDigit : ∀ digit ∈ digits, digit.isDigit = true
  value : Nat.ofDigitChars 10 digits 0 = id.toNat

/-- The word itself. -/
def PauliWord.text (word : PauliWord) : String := String.ofList (word.letter :: word.digits)

/-- A target as it is written. An index is an integer below 2^32. -/
inductive TargetForm where
  | combiner
  | qubit (inverted : Bool) (id : UInt32)
  | pauli (inverted : Bool) (word : PauliWord)
  | record (lookback : UInt32) (back : 1 ≤ lookback.toNat)
  | sweep (index : UInt32)

namespace TargetForm

/-- Tokens of a target. -/
def tokens : TargetForm → List Token
  | combiner => [.star]
  | qubit inverted id => optional .exclamation inverted ++ [.integer id.toUInt64]
  | pauli inverted word => optional .exclamation inverted ++ [.word word.text]
  | record lookback _ =>
    [.word "rec", .leftBracket, .minus, .integer lookback.toUInt64, .rightBracket]
  | sweep index => [.word "sweep", .leftBracket, .integer index.toUInt64, .rightBracket]

/-- The target that is written. -/
def target : TargetForm → Target
  | combiner => .combiner
  | qubit inverted id => .qubit id inverted
  | pauli inverted word => .pauli word.basis word.id inverted
  | record lookback _ => .record lookback
  | sweep index => .sweep index

end TargetForm

/-! ### Statements -/

/-- A number behind a comma. -/
def laterTokens (number : Number) : List Token := .comma :: number.tokens

/-- Numbers with commas between them. -/
def listTokens : List Number → List Token
  | [] => []
  | first :: rest => first.tokens ++ rest.flatMap laterTokens

/-- Arguments in parentheses, which may be left out as a whole. -/
def argumentTokens : Option (List Number) → List Token
  | none => []
  | some numbers => .leftParenthesis :: (listTokens numbers ++ [.rightParenthesis])

/-- An instruction as it is written: a name that opens no block, optional arguments and
    targets. It passes its checks. -/
structure Line where
  name : String
  arguments : Option (List Number)
  targets : List TargetForm
  opensNone : name.toUpper ≠ "REPEAT"
  valid : Instruction.validate ⟨Operator.ofName name, targets.map TargetForm.target,
    (arguments.getD []).map Number.value⟩ = .ok ()

namespace Line

/-- Tokens of an instruction. -/
def tokens (line : Line) : List Token :=
  .word line.name :: (argumentTokens line.arguments ++ line.targets.flatMap TargetForm.tokens)

/-- The instruction that is written. -/
def instruction (line : Line) : Instruction where
  operator := Operator.ofName line.name
  targets := line.targets.map TargetForm.target
  arguments := (line.arguments.getD []).map Number.value

end Line

/-- Statements and line ends, to the end of a block or of the text. An instruction has to
    be followed by the end of its line or by that of the whole block, so it is either
    followed by a line end or the last of all. -/
inductive Block where
  | empty
  | newline (rest : Block)
  | repetition (word : String) (opens : word.toUpper = "REPEAT") (repetitions : UInt64)
      (body rest : Block)
  /-- An instruction that stands before a right brace or the end of the text. -/
  | lastLine (last : Line)
  /-- An instruction and the line end behind it. -/
  | line (first : Line) (rest : Block)

namespace Block

/-- Tokens of a block. -/
def tokens : Block → List Token
  | empty => []
  | newline rest => .newline :: rest.tokens
  | repetition word _ repetitions body rest =>
    .word word :: .integer repetitions :: .leftBrace ::
      (body.tokens ++ .rightBrace :: rest.tokens)
  | lastLine last => last.tokens
  | line first rest => first.tokens ++ .newline :: rest.tokens

/-- The circuit that is written. -/
def circuit : Block → Circuit
  | empty => []
  | newline rest => rest.circuit
  | repetition _ _ repetitions body rest => .block repetitions body.circuit :: rest.circuit
  | lastLine last => [.single last.instruction]
  | line first rest => .single first.instruction :: rest.circuit

end Block

/-! ### What ends a list of phrases -/

/-- Whether the targets of an instruction end before these tokens. -/
def EndsLine : List Token → Prop
  | [] | .newline :: _ | .rightBrace :: _ => True
  | _ => False

/-- Whether the statements of a block end before these tokens. -/
def EndsBlock : List Token → Prop
  | [] | .rightBrace :: _ => True
  | _ => False

/-- A line ends at a line end. -/
theorem endsLine_newline (rest : List Token) : EndsLine (.newline :: rest) := trivial

/-- A block ends at the end of the text. -/
theorem endsBlock_nil : EndsBlock [] := trivial

/-- A block ends at a closing brace. -/
theorem endsBlock_rightBrace (rest : List Token) : EndsBlock (.rightBrace :: rest) := trivial

/-- Where a block ends its last line does. -/
theorem EndsBlock.endsLine {tokens : List Token} (ends : EndsBlock tokens) : EndsLine tokens := by
  rcases tokens with _ | ⟨token, rest⟩
  · trivial
  · cases token with
    | rightBrace => trivial
    | _ => contradiction

/-- Whether phrases are told apart by their own tokens, whatever stands behind them. -/
def PrefixCode {α : Type} (tokens : α → List Token) : Prop :=
  ∀ ⦃first second : α⦄ ⦃rest others : List Token⦄,
    tokens first ++ rest = tokens second ++ others → first = second ∧ rest = others

/-- Lists of such phrases are told apart as well, if none begins where the lists end. -/
theorem PrefixCode.flatMap {α : Type} {tokens : α → List Token} (code : PrefixCode tokens)
    {firsts seconds : List α} {rest others : List Token}
    (ends : ∀ phrase behind, rest ≠ tokens phrase ++ behind)
    (othersEnd : ∀ phrase behind, others ≠ tokens phrase ++ behind)
    (same : firsts.flatMap tokens ++ rest = seconds.flatMap tokens ++ others) :
    firsts = seconds ∧ rest = others := by
  induction firsts generalizing seconds with
  | nil =>
    cases seconds with
    | nil => exact ⟨rfl, same⟩
    | cons second more =>
      rw [List.flatMap_cons, List.append_assoc] at same
      exact absurd same (ends second _)
  | cons first more inductionHypothesis =>
    rw [List.flatMap_cons, List.append_assoc] at same
    cases seconds with
    | nil => exact absurd same.symm (othersEnd first _)
    | cons second later =>
      rw [List.flatMap_cons, List.append_assoc] at same
      obtain ⟨rfl, behind⟩ := code same
      obtain ⟨rfl, rfl⟩ := inductionHypothesis behind
      exact ⟨rfl, rfl⟩

/-! ### One derivation at most -/

/-- A number is told from what follows it. -/
theorem Number.prefixCode : PrefixCode Number.tokens := by
  intro first second rest others same
  rcases first with ⟨_ | _, value⟩ | ⟨_ | _, value⟩
  all_goals
    rcases second with ⟨_ | _, other⟩ | ⟨_ | _, other⟩
    all_goals simp_all [tokens, optional]

/-- No number starts with a closing parenthesis. -/
theorem Number.tokens_ne (number : Number) (rest behind : List Token) :
    number.tokens ++ rest ≠ .rightParenthesis :: behind := by
  rcases number with ⟨_ | _, value⟩ | ⟨_ | _, value⟩
  all_goals nofun

/-- A number behind a comma is told from what follows it. -/
theorem laterTokens_prefixCode : PrefixCode laterTokens := by
  intro first second rest others same
  exact Number.prefixCode (List.cons.inj same).2

/-- A word stands for one operator: its letter tells the axis and its digits the index. -/
theorem PauliWord.text_injective : Function.Injective PauliWord.text := by
  rintro ⟨letter, digits, basis, id, axis, _, _, value⟩ ⟨_, _, otherBasis, other, otherAxis, _, _,
    otherValue⟩ same
  obtain ⟨rfl, rfl⟩ : letter = _ ∧ digits = _ := List.cons.inj (String.ofList_injective same)
  have sameAxis := congrArg Basis.ofChar? (axis.symm.trans otherAxis)
  rw [Basis.ofChar?_letter, Basis.ofChar?_letter] at sameAxis
  obtain rfl : basis = otherBasis := Option.some.inj sameAxis
  obtain rfl : id = other := UInt32.toNat_inj.mp (value.symm.trans otherValue)
  rfl

/-- A word with another first letter is no Pauli operator. -/
theorem PauliWord.ne_text {text : String}
    (other : ∀ basis : Basis, text.toList.head?.map Char.toUpper ≠ some basis.letter)
    (word : PauliWord) : text ≠ word.text := by
  rintro rfl
  apply other word.basis
  rw [PauliWord.text, String.toList_ofList, List.head?_cons, Option.map_some, word.axis]

/-- The words for classical bits are no operators. -/
@[simp]
theorem PauliWord.rec_ne_text (word : PauliWord) : "rec" ≠ word.text :=
  word.ne_text fun basis => by cases basis <;> decide

/-- The word for sweep bits is no Pauli operator. -/
@[simp]
theorem PauliWord.sweep_ne_text (word : PauliWord) : "sweep" ≠ word.text :=
  word.ne_text fun basis => by cases basis <;> decide

/-- A target is told from what follows it. -/
theorem TargetForm.prefixCode : PrefixCode TargetForm.tokens := by
  intro first second rest others same
  rcases first with _ | ⟨_ | _, id⟩ | ⟨_ | _, word⟩ | ⟨lookback, back⟩ | index
  all_goals
    rcases second with _ | ⟨_ | _, other⟩ | ⟨_ | _, other⟩ | ⟨other, _⟩ | other
    all_goals simp_all [tokens, optional, UInt32.toUInt64_inj, PauliWord.text_injective.eq_iff,
      (PauliWord.rec_ne_text _).symm, (PauliWord.sweep_ne_text _).symm]

/-- A target that begins like a record is one. -/
theorem TargetForm.eq_record {form : TargetForm} {tokens rest : List Token}
    (same : .word "rec" :: tokens = form.tokens ++ rest) :
    ∃ lookback back, form = .record lookback back := by
  rcases form with _ | ⟨_ | _, id⟩ | ⟨_ | _, word⟩ | ⟨lookback, back⟩ | index
  case record => exact ⟨lookback, back, rfl⟩
  case pauli.false => exact absurd (Token.word.inj (List.cons.inj same).1) word.rec_ne_text
  case sweep => exact absurd (Token.word.inj (List.cons.inj same).1) (by decide)
  all_goals cases same

/-- A target that begins like a sweep bit is one. -/
theorem TargetForm.eq_sweep {form : TargetForm} {tokens rest : List Token}
    (same : .word "sweep" :: tokens = form.tokens ++ rest) : ∃ index, form = .sweep index := by
  rcases form with _ | ⟨_ | _, id⟩ | ⟨_ | _, word⟩ | ⟨lookback, back⟩ | index
  case sweep => exact ⟨index, rfl⟩
  case pauli.false => exact absurd (Token.word.inj (List.cons.inj same).1) word.sweep_ne_text
  case record => exact absurd (Token.word.inj (List.cons.inj same).1) (by decide)
  all_goals cases same

/-- No target begins where a line ends. -/
theorem EndsLine.ne {tokens : List Token} (ends : EndsLine tokens) (form : TargetForm)
    (behind : List Token) : tokens ≠ form.tokens ++ behind := by
  rintro rfl
  rcases form with _ | ⟨_ | _, id⟩ | ⟨_ | _, word⟩ | ⟨lookback, back⟩ | index
  all_goals exact ends

/-- Targets do not begin like arguments. -/
theorem flatMap_tokens_ne {targets : List TargetForm} {behind : List Token}
    (ends : EndsLine behind) (rest : List Token) :
    targets.flatMap TargetForm.tokens ++ behind ≠ .leftParenthesis :: rest := by
  intro same
  cases targets with
  | nil =>
    obtain rfl : behind = .leftParenthesis :: rest := same
    exact ends
  | cons form others =>
    rcases form with _ | ⟨_ | _, id⟩ | ⟨_ | _, word⟩ | ⟨lookback, back⟩ | index
    all_goals cases same

/-- Numbers in parentheses are told apart and from what follows them. -/
theorem listTokens_inj {numbers others : List Number} {rest behind : List Token}
    (same : listTokens numbers ++ .rightParenthesis :: rest =
      listTokens others ++ .rightParenthesis :: behind) : numbers = others ∧ rest = behind := by
  have noComma (number : Number) (more closed : List Token) :
      .rightParenthesis :: closed ≠ laterTokens number ++ more := nofun
  cases numbers with
  | nil =>
    cases others with
    | nil => exact ⟨rfl, (List.cons.inj same).2⟩
    | cons other more =>
      rw [listTokens, listTokens, List.append_assoc] at same
      exact absurd same.symm (other.tokens_ne _ rest)
  | cons number more =>
    rw [listTokens, List.append_assoc] at same
    cases others with
    | nil => exact absurd same (number.tokens_ne _ behind)
    | cons other later =>
      rw [listTokens, List.append_assoc] at same
      obtain ⟨rfl, sameRest⟩ := Number.prefixCode same
      obtain ⟨rfl, closed⟩ := laterTokens_prefixCode.flatMap (noComma · · rest)
        (noComma · · behind) sameRest
      exact ⟨rfl, (List.cons.inj closed).2⟩

/-- A line is told by its tokens where it ends. -/
theorem Line.tokens_inj {first second : Line} {rest others : List Token} (ends : EndsLine rest)
    (othersEnd : EndsLine others) (same : first.tokens ++ rest = second.tokens ++ others) :
    first = second ∧ rest = others := by
  have targets {these those : List TargetForm} (sameTargets :
      these.flatMap TargetForm.tokens ++ rest = those.flatMap TargetForm.tokens ++ others) :=
    TargetForm.prefixCode.flatMap ends.ne othersEnd.ne sameTargets
  obtain ⟨name, arguments, forms, opensNone, valid⟩ := first
  obtain ⟨other, otherArguments, otherForms, _, _⟩ := second
  rw [Line.tokens, Line.tokens, List.cons_append, List.cons_append, List.append_assoc,
    List.append_assoc] at same
  obtain ⟨sameName, behind⟩ := List.cons.inj same
  obtain rfl : name = other := Token.word.inj sameName
  cases arguments with
  | none =>
    cases otherArguments with
    | none =>
      obtain ⟨rfl, rfl⟩ := targets behind
      exact ⟨rfl, rfl⟩
    | some numbers => exact absurd behind (flatMap_tokens_ne ends _)
  | some numbers =>
    cases otherArguments with
    | none => exact absurd behind.symm (flatMap_tokens_ne othersEnd _)
    | some otherNumbers =>
      rw [argumentTokens, argumentTokens, List.cons_append, List.cons_append, List.append_assoc,
        List.append_assoc] at behind
      obtain ⟨rfl, sameTargets⟩ := listTokens_inj (List.cons.inj behind).2
      obtain ⟨rfl, rfl⟩ := targets sameTargets
      exact ⟨rfl, rfl⟩

/-- Behind an instruction come a line end and the rest of the block. -/
theorem Block.tokens_line_append (first : Line) (rest : Block) (behind : List Token) :
    (Block.line first rest).tokens ++ behind =
      first.tokens ++ .newline :: (rest.tokens ++ behind) := by
  rw [tokens, List.append_assoc, List.cons_append]

/-- The word that opens a block is no name of an instruction. -/
theorem Line.tokens_ne (line : Line) {word : String} (opens : word.toUpper = "REPEAT")
    (rest behind : List Token) : line.tokens ++ rest ≠ .word word :: behind := by
  intro same
  obtain rfl : line.name = word := Token.word.inj (List.cons.inj same).1
  exact line.opensNone opens

/-- Where a block ends, only the empty one begins. -/
theorem EndsBlock.eq_empty {block : Block} {tokens rest : List Token} (ends : EndsBlock tokens)
    (same : tokens = block.tokens ++ rest) : block = .empty ∧ tokens = rest := by
  cases block with
  | empty => exact ⟨rfl, same⟩
  | _ =>
    rw [same] at ends
    exact ends.elim

/-- A block is told by its tokens where it ends. The induction follows the first of two
    derivations, and the token at hand tells how the second goes on. -/
theorem Block.tokens_inj {first second : Block} {rest others : List Token} (ends : EndsBlock rest)
    (othersEnd : EndsBlock others) (same : first.tokens ++ rest = second.tokens ++ others) :
    first = second ∧ rest = others := by
  induction first generalizing second rest others with
  | empty =>
    obtain ⟨rfl, behind⟩ := ends.eq_empty same
    exact ⟨rfl, behind⟩
  | newline more inductionHypothesis =>
    cases second with
    | empty => cases (othersEnd.eq_empty same.symm).1
    | newline later =>
      obtain ⟨rfl, rfl⟩ := inductionHypothesis ends othersEnd (List.cons.inj same).2
      exact ⟨rfl, rfl⟩
    | _ => cases same
  | repetition word opens repetitions body more bodyHypothesis restHypothesis =>
    cases second with
    | empty => cases (othersEnd.eq_empty same.symm).1
    | newline later => cases same
    | repetition otherWord otherOpens otherRepetitions otherBody later =>
      simp only [tokens, List.cons_append, List.append_assoc, List.cons.injEq, Token.word.injEq,
        Token.integer.injEq, true_and] at same
      obtain ⟨rfl, rfl, sameBody⟩ := same
      obtain ⟨rfl, sameRest⟩ :=
        bodyHypothesis (endsBlock_rightBrace _) (endsBlock_rightBrace _) sameBody
      obtain ⟨rfl, rfl⟩ := restHypothesis ends othersEnd (List.cons.inj sameRest).2
      exact ⟨rfl, rfl⟩
    | lastLine last => exact absurd same.symm (last.tokens_ne opens _ _)
    | line line later =>
      rw [tokens_line_append] at same
      exact absurd same.symm (line.tokens_ne opens _ _)
  -- An instruction without a line end behind it is the last of its block, so the other
  -- derivation has nothing behind it either.
  | lastLine last =>
    cases second with
    | empty => cases (othersEnd.eq_empty same.symm).1
    | newline later => cases same
    | repetition word opens repetitions body later => exact absurd same (last.tokens_ne opens _ _)
    | lastLine other =>
      obtain ⟨rfl, rfl⟩ := Line.tokens_inj ends.endsLine othersEnd.endsLine same
      exact ⟨rfl, rfl⟩
    | line line later =>
      rw [tokens_line_append] at same
      obtain ⟨-, rfl⟩ := Line.tokens_inj ends.endsLine (endsLine_newline _) same
      exact ends.elim
  | line line more inductionHypothesis =>
    cases second with
    | empty => cases (othersEnd.eq_empty same.symm).1
    | newline later => cases same
    | repetition word opens repetitions body later =>
      rw [tokens_line_append] at same
      exact absurd same (line.tokens_ne opens _ _)
    | lastLine last =>
      rw [tokens_line_append] at same
      obtain ⟨-, rfl⟩ := Line.tokens_inj (endsLine_newline _) othersEnd.endsLine same
      exact othersEnd.elim
    | line other later =>
      rw [tokens_line_append, tokens_line_append] at same
      obtain ⟨rfl, sameRest⟩ := Line.tokens_inj (endsLine_newline _) (endsLine_newline _) same
      obtain ⟨rfl, rfl⟩ := inductionHypothesis ends othersEnd (List.cons.inj sameRest).2
      exact ⟨rfl, rfl⟩

/-- Tokens have at most one derivation. -/
theorem Block.tokens_injective : Function.Injective Block.tokens := by
  intro first second same
  have closed : first.tokens ++ [] = second.tokens ++ [] := congrArg (· ++ []) same
  exact (tokens_inj endsBlock_nil endsBlock_nil closed).1

end Grammar

end StabilizerLayers
