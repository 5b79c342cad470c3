import StabilizerLayers.Proofs.Decimal.Patterns
import StabilizerLayers.Proofs.Text.Lines
import StabilizerLayers.Text.Reader

/-!
# Reading written circuits

The text of a circuit is read back as that circuit. The reader is followed along the
tokens of a line, part by part: a target is added to the instruction that is being read,
an argument to its arguments, and the end of the line writes the instruction. Over the
lines of a circuit the proof is an induction on its operations, with what has been
written before and the blocks that are open left general.

What is said is exact: a written circuit is read back if its arguments are finite and
below 2^64, and otherwise it is refused.
-/

namespace StabilizerLayers

open Token (joined)

/-- A result that has a value as an option is that value. -/
theorem eq_ok_of_toOption {ε α : Type} {result : Except ε α} {value : α}
    (succeeds : result.toOption = some value) : result = .ok value := by
  cases result with
  | error fault => contradiction
  | ok other => exact congrArg Except.ok (Option.some.inj succeeds)

/-- A result that has no value as an option is an error. -/
theorem exists_error_of_toOption {ε α : Type} {result : Except ε α}
    (fails : result.toOption = none) : ∃ fault, result = .error fault := by
  cases result with
  | error fault => exact ⟨fault, rfl⟩
  | ok other => contradiction

namespace Reader

/-! ### Tokens of one line -/

/-- Where tokens of one line lead a reader, if they can be read and the grammar allows
    them. -/
def takes (reader : Reader) (line : Nat) (tokens? : Option (List Token)) : Option Reader :=
  tokens?.bind fun tokens => (reader.advance (Token.onLine line tokens)).toOption

/-- Tokens behind tokens that can be taken. -/
theorem advance_append_of_ok {reader next : Reader} {first : List Lexeme}
    (taken : reader.advance first = .ok next) (second : List Lexeme) :
    reader.advance (first ++ second) = next.advance second := by
  induction first generalizing reader with
  | nil =>
    obtain rfl := Except.ok.inj taken
    rfl
  | cons lexeme rest inductionHypothesis =>
    rw [advance] at taken
    rw [List.cons_append, advance]
    cases stepped : reader.step lexeme with
    | error fault =>
      rw [stepped] at taken
      contradiction
    | ok middle =>
      rw [stepped] at taken
      exact inductionHypothesis taken

/-- Tokens one behind the other lead where the second ones lead from where the first ones led. -/
theorem toOption_advance_append (reader : Reader) (first second : List Lexeme) :
    (reader.advance (first ++ second)).toOption =
      (reader.advance first).toOption.bind fun next => (next.advance second).toOption := by
  induction first generalizing reader with
  | nil => rfl
  | cons lexeme rest inductionHypothesis =>
    rw [List.cons_append, advance, advance]
    cases reader.step lexeme with
    | error fault => rfl
    | ok next => exact inductionHypothesis next

/-- No tokens lead nowhere else. -/
theorem takes_nil (reader : Reader) (line : Nat) : reader.takes line (some []) = some reader := rfl

/-- A token that is taken has the rest of its line behind it. -/
theorem takes_token {reader next : Reader} {token : Token} {line : Nat}
    (step : reader.step ⟨token, line⟩ = .ok next) (rest : List Token) :
    reader.takes line (some (token :: rest)) = next.takes line (some rest) := by
  simp only [takes, Token.onLine, List.map_cons, Option.bind_some, advance, step]

/-- A token that is refused ends the line. -/
theorem takes_refused {reader : Reader} {token : Token} {line : Nat} {fault : ParseError}
    (step : reader.step ⟨token, line⟩ = .error fault) (rest : List Token) :
    reader.takes line (some (token :: rest)) = none := by
  simp only [takes, Token.onLine, List.map_cons, Option.bind_some, advance, step]
  rfl

/-- Parts are taken one after the other. -/
theorem takes_joined (reader : Reader) (line : Nat) (first? second? : Option (List Token)) :
    reader.takes line (joined first? second?) =
      (reader.takes line first?).bind fun next => next.takes line second? := by
  cases first? with
  | none => rfl
  | some first =>
    cases second? with
    | none =>
      cases (reader.takes line (some first)) with
      | none => rfl
      | some next => rfl
    | some second =>
      simp only [takes, joined, Option.bind_some, Option.map_some, Token.onLine_append,
        toOption_advance_append]

/-! ### Targets -/

end Reader

/-- The instruction to which targets can be added at a place. -/
def Place.targetsOf? : Place → Option Draft
  | .name draft | .target draft => some draft
  | _ => none

/-- Whether a record is counted back at least by one. -/
def Target.CountsBack : Target → Prop
  | .record lookback => 1 ≤ lookback.toNat
  | _ => True

instance : DecidablePred Target.CountsBack := fun target =>
  match target with
  | .record lookback => inferInstanceAs (Decidable (1 ≤ lookback.toNat))
  | .qubit _ _ | .sweep _ | .pauli _ _ _ | .combiner => .isTrue trivial

namespace Reader

/-- Where a target may stand, any token but an opening parenthesis is taken for a target. -/
theorem step_target {reader : Reader} {draft : Draft} {token : Token} {line : Nat}
    (among : reader.place.targetsOf? = some draft) (noArguments : token ≠ .leftParenthesis) :
    reader.step ⟨token, line⟩ = reader.stepTarget draft ⟨token, line⟩ := by
  obtain ⟨place, enclosing, written⟩ := reader
  cases place with
  | name other =>
    cases among
    cases token with
    | leftParenthesis => contradiction
    | _ => rfl
  | target other =>
    cases among
    rfl
  | _ => contradiction

/-- A 32-bit number comes back from 64 bits. -/
theorem index32?_toUInt64 (index : UInt32) : index32? index.toUInt64 = some index := by
  rw [index32?, UInt32.toNat_toUInt64, if_pos index.toNat_lt, UInt32.toUInt32_toUInt64]

/-- The number of a qubit is read as that qubit. -/
theorem readQubit_toUInt64 (id : Qubit) : readQubit id.toUInt64 = .ok id := by
  rw [readQubit, index32?_toUInt64]

/-- The number of a record is read as that record if it counts at least one back. -/
theorem readRecord_toUInt64 {lookback : UInt32} (back : 1 ≤ lookback.toNat) :
    readRecord true lookback.toUInt64 = .ok (.record lookback) := by
  have nonzero : (lookback.toUInt64 == 0) = false := by
    apply beq_false_of_ne
    intro zero
    have none := congrArg UInt64.toNat zero
    rw [UInt32.toNat_toUInt64] at none
    change _ = 0 at none
    omega
  simp only [readRecord, nonzero, index32?_toUInt64]
  rfl

/-- The letter of an axis and the digits of a qubit are read as a Pauli operator. -/
theorem readPauli_letter (basis : Basis) (id : Qubit) (inverted : Bool) :
    readPauli (String.ofList (basis.letter :: Nat.toDigits 10 id.toNat)) inverted =
      .ok (.pauli basis id inverted) := by
  have digits : (Nat.toDigits 10 id.toNat).all Char.isDigit = true :=
    List.all_eq_true.mpr fun _ => isDigit_of_mem_toDigits
  have some : (Nat.toDigits 10 id.toNat).isEmpty = false :=
    List.isEmpty_eq_false_iff.mpr Nat.toDigits_ne_nil
  have small : id.toNat < UInt64.size := Nat.lt_trans id.toNat_lt (by decide)
  have index : UInt64.ofNat id.toNat = id.toUInt64 := by
    apply UInt64.toNat_inj.mp
    rw [UInt64.toNat_ofNat_of_lt' small, UInt32.toNat_toUInt64]
  simp only [readPauli, String.toList_ofList, Basis.ofChar?_letter, digits, some,
    Nat.ofDigitChars_ten_toDigits, small, index, readQubit_toUInt64]
  rfl

/-- A word that is neither of the two for classical bits is read as an operator. -/
theorem stepTarget_word {word : String} (noRecord : word ≠ "rec") (noSweep : word ≠ "sweep")
    (reader : Reader) (draft : Draft) (line : Nat) :
    reader.stepTarget draft ⟨.word word, line⟩ =
      reader.addTarget draft line (readPauli word false) := by
  simp only [stepTarget]

/-- A word with another first letter is no Pauli operator. -/
theorem ofList_letter_ne {basis : Basis} {digits : List Char} {word : String}
    (other : word.toList.head? ≠ some basis.letter) :
    String.ofList (basis.letter :: digits) ≠ word := by
  rintro rfl
  rw [String.toList_ofList] at other
  exact other rfl

/-- A target is added to the instruction that is being read. -/
theorem takes_target {reader : Reader} {draft : Draft}
    (among : reader.place.targetsOf? = some draft) {target : Target} (back : target.CountsBack)
    (line : Nat) :
    reader.takes line (some target.tokens) =
      some (reader.moved (.target (draft.addTarget target))) := by
  -- The first token is taken as that of a target wherever one may stand; the tokens behind it
  -- are taken by the place that it leads to.
  cases target with
  | qubit id inverted =>
    cases inverted with
    | false =>
      refine takes_token ?_ []
      rw [step_target among Token.noConfusion]
      simp only [stepTarget, readQubit_toUInt64]
      rfl
    | true =>
      refine (takes_token (step_target among Token.noConfusion) _).trans (takes_token ?_ [])
      simp only [step, moved, readQubit_toUInt64]
      rfl
  | record lookback =>
    refine (takes_token (step_target among Token.noConfusion) _).trans ?_
    refine (takes_token rfl _).trans ?_
    refine (takes_token rfl _).trans ?_
    refine (takes_token rfl _).trans (takes_token ?_ [])
    simp only [step, moved, readRecord_toUInt64 back]
    rfl
  | sweep index =>
    refine (takes_token (step_target among Token.noConfusion) _).trans ?_
    refine (takes_token rfl _).trans ?_
    refine (takes_token rfl _).trans (takes_token ?_ [])
    simp only [step, moved, readSweep, index32?_toUInt64]
    rfl
  | pauli basis id inverted =>
    cases inverted with
    | false =>
      refine takes_token ?_ []
      rw [step_target among Token.noConfusion,
        stepTarget_word (ofList_letter_ne (by cases basis <;> decide))
          (ofList_letter_ne (by cases basis <;> decide)), readPauli_letter]
      rfl
    | true =>
      refine (takes_token (step_target among Token.noConfusion) _).trans (takes_token ?_ [])
      simp only [step, moved, readPauli_letter]
      rfl
  | combiner => exact takes_token (step_target among Token.noConfusion) []

/-- All targets of an instruction are added in order. -/
theorem takes_targets {reader : Reader} {draft : Draft}
    (among : reader.place.targetsOf? = some draft) {targets : List Target}
    (back : ∀ target ∈ targets, target.CountsBack) (line : Nat) :
    ∃ place, place.targetsOf? = some { draft with targets := targets.reverse ++ draft.targets } ∧
      reader.takes line (some (targets.flatMap Target.tokens)) = some (reader.moved place) := by
  induction targets generalizing reader draft with
  | nil => exact ⟨reader.place, among, rfl⟩
  | cons target rest inductionHypothesis =>
    have next : (reader.moved (.target (draft.addTarget target))).place.targetsOf? =
        some (draft.addTarget target) := rfl
    obtain ⟨place, reached, taken⟩ := inductionHypothesis next
      fun other member => back other (List.mem_cons_of_mem _ member)
    refine ⟨place, ?_, ?_⟩
    · rw [reached, List.reverse_cons, List.append_assoc]
      rfl
    · have parts : some ((target :: rest).flatMap Target.tokens) =
          joined (some target.tokens) (some (rest.flatMap Target.tokens)) := rfl
      rw [parts, takes_joined, takes_target among (back target (List.mem_cons_self ..)),
        Option.bind_some, taken]
      rfl

end Reader

/-! ### Arguments -/

/-- Whether a token stands for the nonnegative double with these bits. -/
def Token.Names (bits : Nat) : Token → Prop
  | integer value => Decimal.toBits ⟨value.toNat, 0⟩ = bits
  | decimal value => value = Float.ofBits (UInt64.ofNat bits)
  | _ => False

namespace Binary64

/-- A double below 2^64 is written with a token that stands for it. -/
theorem exists_magnitudeToken? {bits : Nat} (small : bits < limitBits) :
    ∃ token, magnitudeToken? bits = some token ∧ token.Names bits := by
  have finite : bits < infinityBits := Nat.lt_trans small (by decide)
  have reads := toBits_ofDigits_writtenDecimal finite
  rw [magnitudeToken?, if_pos finite, Token.number?]
  by_cases whole : (writtenDecimal bits).fractionDigits = []
  · have fits : Nat.ofDigitChars 10 (writtenDecimal bits).wholeDigits 0 < UInt64.size :=
      ofDigitChars_wholeDigits_lt small whole
    rw [if_pos whole, if_pos fits]
    refine ⟨_, rfl, ?_⟩
    rw [whole, Decimal.ofDigits, List.append_nil] at reads
    rw [Token.Names, UInt64.toNat_ofNat_of_lt' fits]
    exact reads
  · rw [if_neg whole]
    refine ⟨_, rfl, ?_⟩
    rw [Token.Names, Decimal.toFloat, reads]

/-- A finite double from 2^64 on is written with too many digits. -/
theorem magnitudeToken?_eq_none {bits : Nat} (finite : bits < infinityBits)
    (large : limitBits ≤ bits) : magnitudeToken? bits = none := by
  obtain ⟨whole, many⟩ := le_ofDigitChars_wholeDigits finite large
  have tooLong : ¬ Nat.ofDigitChars 10 (writtenDecimal bits).wholeDigits 0 < UInt64.size :=
    Nat.not_lt.mpr many
  rw [magnitudeToken?, if_pos finite, Token.number?, if_pos whole, if_neg tooLong]

end Binary64

/-- The instruction to which an argument can be added at a place. -/
def Place.argumentsOf? : Place → Option Draft
  | .firstArgument draft | .argument draft => some draft
  | _ => none

namespace Reader

/-- A token that names a number is taken as that number, or as its negative behind a minus sign. -/
theorem stepNumber_names {bits : Nat} {token : Token} (names : token.Names bits) (reader : Reader)
    (draft : Draft) (negative : Bool) (line : Nat) :
    reader.stepNumber draft negative ⟨token, line⟩ =
      .ok (reader.moved (.separator (draft.addArgument
        (if negative then -(Float.ofBits (UInt64.ofNat bits))
          else Float.ofBits (UInt64.ofNat bits))))) := by
  cases token with
  | integer value =>
    rw [← show Decimal.toBits ⟨value.toNat, 0⟩ = bits from names]
    rfl
  | decimal value =>
    rw [← show value = Float.ofBits (UInt64.ofNat bits) from names]
    rfl
  | _ => contradiction

/-- Where an argument may stand, any token but a closing parenthesis is taken for an argument. -/
theorem step_argument {reader : Reader} {draft : Draft} {token : Token} {line : Nat}
    (expects : reader.place.argumentsOf? = some draft) (notClosed : token ≠ .rightParenthesis) :
    reader.step ⟨token, line⟩ = reader.stepArgument draft ⟨token, line⟩ := by
  obtain ⟨place, enclosing, written⟩ := reader
  cases place with
  | firstArgument other =>
    cases expects
    cases token with
    | rightParenthesis => contradiction
    | _ => rfl
  | argument other =>
    cases expects
    rfl
  | _ => contradiction

/-- Where an argument may stand, a token that names a number is taken as one. -/
theorem step_argument_names {reader : Reader} {draft : Draft} {bits : Nat} {token : Token}
    {line : Nat} (expects : reader.place.argumentsOf? = some draft) (names : token.Names bits) :
    reader.step ⟨token, line⟩ = reader.stepNumber draft false ⟨token, line⟩ := by
  cases token with
  | integer value => exact step_argument expects Token.noConfusion
  | decimal value => exact step_argument expects Token.noConfusion
  | _ => contradiction

/-- A word is no number, with or without a sign. -/
theorem takes_word_argument {reader : Reader} {draft : Draft}
    (expects : reader.place.argumentsOf? = some draft) (word : String) (line : Nat) :
    reader.takes line (some [.word word]) = none ∧
      reader.takes line (some [.minus, .word word]) = none := by
  have minus : reader.step ⟨.minus, line⟩ = .ok (reader.moved (.negativeArgument draft)) :=
    step_argument expects Token.noConfusion
  constructor
  · exact takes_refused (step_argument expects Token.noConfusion) []
  · rw [takes_token minus]
    exact takes_refused rfl []

/-- An argument is added to the instruction that is being read if it is finite and below
    2^64, and otherwise it is refused. -/
theorem takes_argument {reader : Reader} {draft : Draft}
    (expects : reader.place.argumentsOf? = some draft) (value : Float) (line : Nat) :
    reader.takes line (Binary64.tokens? value) =
      if Binary64.IsSmall value then some (reader.moved (.separator (draft.addArgument value)))
      else none := by
  rw [Binary64.tokens?]
  by_cases noNumber : Binary64.infinityBits < Binary64.magnitudeBits value
  · -- What is no number is written as a word and without a sign.
    rw [if_pos noNumber, if_neg fun small => Nat.lt_asymm noNumber small.1]
    exact (takes_word_argument expects "NaN" line).1
  · have number := Nat.not_lt.mp noNumber
    have signed := Binary64.eq_signed number
    rw [if_neg noNumber]
    by_cases small : Binary64.IsSmall value
    · obtain ⟨token, written, names⟩ :=
        Binary64.exists_magnitudeToken? (Binary64.isSmall_iff.mp small)
      rw [if_pos small, written, Option.map_some]
      cases negative : Binary64.isNegative value with
      | false =>
        rw [negative] at signed
        refine takes_token ?_ []
        rw [step_argument_names expects names, stepNumber_names names, signed]
      | true =>
        rw [negative] at signed
        have minus : reader.step ⟨.minus, line⟩ = .ok (reader.moved (.negativeArgument draft)) :=
          step_argument expects Token.noConfusion
        refine (takes_token minus [token]).trans (takes_token ?_ [])
        have step : (reader.moved (.negativeArgument draft)).step ⟨token, line⟩ =
            (reader.moved (.negativeArgument draft)).stepNumber draft true ⟨token, line⟩ := rfl
        rw [step, stepNumber_names names, signed]
        rfl
    · rw [if_neg small]
      by_cases finite : Binary64.magnitudeBits value < Binary64.infinityBits
      · have large : Binary64.limitBits ≤ Binary64.magnitudeBits value := by
          rw [Binary64.isSmall_iff] at small
          exact Nat.not_lt.mp small
        -- The digits are refused by the scanner, before the reader sees a token.
        rw [Binary64.magnitudeToken?_eq_none finite large]
        cases Binary64.isNegative value with
        | false => rfl
        | true => rfl
      · rw [Binary64.magnitudeToken?, if_neg finite]
        cases Binary64.isNegative value with
        | false => exact (takes_word_argument expects "inf" line).1
        | true => exact (takes_word_argument expects "inf" line).2

/-- An argument and those behind it. -/
theorem takes_argument_joined {reader : Reader} {draft : Draft} {rest : List Float} {line : Nat}
    (expects : reader.place.argumentsOf? = some draft)
    (later : ∀ draft : Draft,
      (reader.moved (.separator draft)).takes line (Instruction.laterArgumentTokens? rest) =
        if ∀ value ∈ rest, Binary64.IsSmall value then
          some (reader.moved (.target { draft with arguments := rest.reverse ++ draft.arguments }))
        else none) (value : Float) :
    reader.takes line (joined (Binary64.tokens? value) (Instruction.laterArgumentTokens? rest)) =
      if ∀ other ∈ value :: rest, Binary64.IsSmall other then
        some (reader.moved (.target
          { draft with arguments := (value :: rest).reverse ++ draft.arguments }))
      else none := by
  rw [takes_joined, takes_argument expects]
  by_cases small : Binary64.IsSmall value
  · rw [if_pos small, Option.bind_some, later]
    by_cases others : ∀ other ∈ rest, Binary64.IsSmall other
    · rw [if_pos others, if_pos (List.forall_mem_cons.mpr ⟨small, others⟩), List.reverse_cons,
        List.append_assoc]
      rfl
    · rw [if_neg others, if_neg fun all => others (List.forall_mem_cons.mp all).2]
  · rw [if_neg small, if_neg fun all => small (List.forall_mem_cons.mp all).1]
    rfl

/-- The arguments behind the first one are taken exactly if all of them are small. -/
theorem takes_laterArguments (reader : Reader) (draft : Draft) (arguments : List Float)
    (line : Nat) :
    (reader.moved (.separator draft)).takes line (Instruction.laterArgumentTokens? arguments) =
      if ∀ value ∈ arguments, Binary64.IsSmall value then
        some (reader.moved (.target
          { draft with arguments := arguments.reverse ++ draft.arguments }))
      else none := by
  induction arguments generalizing reader draft with
  | nil => exact takes_token rfl []
  | cons value rest inductionHypothesis =>
    have comma : (reader.moved (.separator draft)).takes line (some [.comma]) =
        some (reader.moved (.argument draft)) := takes_token rfl []
    have expects : (reader.moved (.argument draft)).place.argumentsOf? = some draft := rfl
    rw [Instruction.laterArgumentTokens?, takes_joined, comma, Option.bind_some,
      takes_argument_joined expects (inductionHypothesis _)]
    rfl

/-- The arguments of an instruction whose name has been read. -/
theorem takes_arguments (reader : Reader) (draft : Draft) (arguments : List Float) (line : Nat) :
    ∃ place,
      place.targetsOf? = some { draft with arguments := arguments.reverse ++ draft.arguments } ∧
      (reader.moved (.name draft)).takes line (Instruction.argumentTokens? arguments) =
        if ∀ value ∈ arguments, Binary64.IsSmall value then some (reader.moved place)
        else none := by
  cases arguments with
  | nil => exact ⟨.name draft, rfl, rfl⟩
  | cons value rest =>
    have opens : (reader.moved (.name draft)).takes line (some [.leftParenthesis]) =
        some (reader.moved (.firstArgument draft)) := takes_token rfl []
    have expects : (reader.moved (.firstArgument draft)).place.argumentsOf? = some draft := rfl
    refine ⟨.target { draft with arguments := (value :: rest).reverse ++ draft.arguments }, rfl, ?_⟩
    rw [Instruction.argumentTokens?, takes_joined, opens, Option.bind_some,
      takes_argument_joined expects fun draft => takes_laterArguments _ draft rest line]
    rfl

end Reader

/-! ### Instructions -/

namespace Operator

/-- Whether the name of an operator is read as that operator: it is a gate, or one word
    that neither opens a block nor names a gate. -/
def IsReadable : Operator → Prop
  | known _ => True
  | custom name =>
    Token.isWord name.toList = true ∧ opensBlock name = false ∧ Gate.ofName? name = none

instance : DecidablePred IsReadable := fun operator =>
  match operator with
  | known _ => .isTrue trivial
  | custom name => inferInstanceAs (Decidable (Token.isWord name.toList = true ∧
      opensBlock name = false ∧ Gate.ofName? name = none))

/-- The name of a readable operator is a word. -/
theorem isWord_name {operator : Operator} (readable : operator.IsReadable) :
    Token.isWord operator.name.toList = true := by
  cases operator with
  | known gate => exact gate.isWord_name
  | custom name => exact readable.1

/-- The name of a readable operator does not open a block. -/
theorem opensBlock_name {operator : Operator} (readable : operator.IsReadable) :
    opensBlock operator.name = false := by
  cases operator with
  | known gate =>
    have none : ∀ listed ∈ Gate.all, opensBlock listed.name = false := by decide +kernel
    exact none gate (Gate.mem_all gate)
  | custom name => exact readable.2.1

/-- A readable operator is found by its name. -/
theorem ofName_name {operator : Operator} (readable : operator.IsReadable) :
    ofName operator.name = operator := by
  cases operator with
  | known gate =>
    rw [name, ofName, Gate.ofName?_name]
  | custom name =>
    rw [Operator.name, ofName, readable.2.2]

end Operator

namespace Instruction

/-- Whether the name and the targets of an instruction are read as they are written. -/
structure IsReadable (instruction : Instruction) : Prop where
  operator : instruction.operator.IsReadable
  targets : ∀ target ∈ instruction.targets, target.CountsBack

instance : DecidablePred IsReadable := fun instruction =>
  decidable_of_iff (instruction.operator.IsReadable ∧
    ∀ target ∈ instruction.targets, target.CountsBack)
    ⟨fun both => ⟨both.1, both.2⟩, fun readable => ⟨readable.operator, readable.targets⟩⟩

/-- Whether all arguments of an instruction are finite and below 2^64. -/
def HasSmallArguments (instruction : Instruction) : Prop :=
  ∀ value ∈ instruction.arguments, Binary64.IsSmall value

instance : DecidablePred HasSmallArguments := fun instruction =>
  inferInstanceAs (Decidable (∀ value ∈ instruction.arguments, Binary64.IsSmall value))

end Instruction

namespace Reader

/-- The reader after it has written an operation. -/
def wrote (reader : Reader) (operation : Operation) : Reader :=
  { reader with place := .statement, written := reader.written.push operation }

/-- The name of an operator starts an instruction. -/
theorem step_name {reader : Reader} (between : reader.place = .statement) {operator : Operator}
    (readable : operator.IsReadable) (line : Nat) :
    reader.step ⟨.word operator.name, line⟩ =
      .ok (reader.moved (.name ⟨line, operator.name, [], []⟩)) := by
  obtain ⟨place, enclosing, written⟩ := reader
  obtain rfl : place = .statement := between
  simp only [step, stepStatement, operator.opensBlock_name readable, Bool.false_eq_true, if_false]

/-- Behind an instruction a statement may stand. -/
theorem place_of_endInstruction {reader next : Reader} {draft : Draft}
    (ended : reader.endInstruction draft = .ok next) : next.place = .statement := by
  simp only [endInstruction] at ended
  split at ended
  · contradiction
  · cases ended
    rfl

/-- Among the targets, the end of the text ends the instruction first. -/
theorem finish_of_targetsOf? {reader : Reader} {draft : Draft}
    (among : reader.place.targetsOf? = some draft) :
    reader.finish = (reader.endInstruction draft).bind closed := by
  obtain ⟨place, enclosing, written⟩ := reader
  cases place with
  | name other | target other =>
    cases among
    simp only [finish]
    cases endInstruction _ draft with
    | error fault => rfl
    | ok ended => rfl
  | _ => contradiction

/-- The end of the line ends a valid instruction. -/
theorem step_newline {reader : Reader} {draft : Draft}
    (among : reader.place.targetsOf? = some draft) (valid : draft.instruction.validate = .ok ())
    (line : Nat) :
    reader.step ⟨.newline, line⟩ = .ok (reader.wrote (.single draft.instruction)) := by
  rw [step_target among Token.noConfusion]
  simp only [stepTarget, endInstruction, Builder.append, valid]
  rfl

/-- A line with a valid instruction writes it, if its arguments are small. -/
theorem takes_instruction {reader : Reader} (between : reader.place = .statement)
    {instruction : Instruction} (valid : instruction.validate = .ok ())
    (readable : instruction.IsReadable) (line : Nat) :
    reader.takes line (joined instruction.tokens? (some [.newline])) =
      if instruction.HasSmallArguments then some (reader.wrote (.single instruction))
      else none := by
  have name : reader.takes line (some [.word instruction.operator.name]) = _ :=
    takes_token (step_name between readable.operator line) []
  obtain ⟨place, arguments, taken⟩ := takes_arguments reader
    ⟨line, instruction.operator.name, [], []⟩ instruction.arguments line
  rw [Instruction.tokens?, takes_joined, takes_joined, name, takes_nil, Option.bind_some,
    takes_joined, taken]
  by_cases small : ∀ value ∈ instruction.arguments, Binary64.IsSmall value
  · have among : (reader.moved place).place.targetsOf? = some ⟨line, instruction.operator.name,
        instruction.arguments.reverse ++ [], []⟩ := arguments
    obtain ⟨last, targets, all⟩ := takes_targets among readable.targets line
    have placed : ((reader.moved place).moved last).place.targetsOf? = some ⟨line,
        instruction.operator.name, instruction.arguments.reverse ++ [],
        instruction.targets.reverse ++ []⟩ := targets
    -- Both lists are collected latest first, and the draft turns them around.
    have complete : Draft.instruction ⟨line, instruction.operator.name,
        instruction.arguments.reverse ++ [], instruction.targets.reverse ++ []⟩ = instruction := by
      simp only [Draft.instruction, Operator.ofName_name readable.operator, List.append_nil,
        List.reverse_reverse]
    have ends := step_newline placed (by rwa [complete]) line
    have has : instruction.HasSmallArguments := small
    rw [if_pos small, if_pos has, Option.bind_some, all, Option.bind_some, takes_token ends,
      complete]
    rfl
  · have lacks : ¬ instruction.HasSmallArguments := small
    rw [if_neg small, if_neg lacks]
    rfl

/-! ### Lines -/

/-- Where ended lines, counted from `number`, lead a reader. -/
def takesLines (reader : Reader) (number : Nat) : List (Option (List Token)) → Option Reader
  | [] => some reader
  | tokens? :: rest =>
    (reader.takes number (joined tokens? (some [.newline]))).bind fun next =>
      next.takesLines (number + 1) rest

/-- Lines one behind the other lead where the second ones lead, with their numbers counted on. -/
theorem takesLines_append (reader : Reader) (number : Nat)
    (first second : List (Option (List Token))) :
    reader.takesLines number (first ++ second) =
      (reader.takesLines number first).bind fun next =>
        next.takesLines (number + first.length) second := by
  induction first generalizing reader number with
  | nil => rfl
  | cons tokens? rest inductionHypothesis =>
    have position : number + (rest.length + 1) = number + 1 + rest.length := by omega
    rw [List.cons_append, takesLines, takesLines, Option.bind_assoc, List.length_cons, position]
    exact congrArg _ (funext fun next => inductionHypothesis next (number + 1))

/-- A text is read line by line. -/
theorem bind_numbered? (reader : Reader) (number : Nat)
    (tokenLines : List (Option (List Token))) :
    ((Token.numbered? number tokenLines).bind fun lexemes => (reader.advance lexemes).toOption) =
      reader.takesLines number tokenLines := by
  induction tokenLines generalizing reader number with
  | nil => rfl
  | cons tokens? rest inductionHypothesis =>
    have later : ∀ next : Reader, next.takesLines (number + 1) rest =
        (Token.numbered? (number + 1) rest).bind fun lexemes => (next.advance lexemes).toOption :=
      fun next => (inductionHypothesis next (number + 1)).symm
    rw [Token.numbered?, takesLines, funext later]
    cases tokens? with
    | none => rfl
    | some tokens =>
      cases Token.numbered? (number + 1) rest with
      | none => cases reader.takes number (joined (some tokens) (some [.newline])) <;> rfl
      | some lexemes =>
        have line : Token.onLine number tokens ++ ⟨.newline, number⟩ :: lexemes =
            Token.onLine number (tokens ++ [.newline]) ++ lexemes := by
          rw [Token.onLine_append, List.append_assoc]
          rfl
        simp only [Option.bind_some, Option.map_some, line, toOption_advance_append, takes, joined]

/-! ### Operations -/

/-- The reader after it has written operations. -/
def wroteAll (reader : Reader) (operations : List Operation) : Reader where
  place := .statement
  enclosing := reader.enclosing
  written := ⟨operations.reverse ++ reader.written.latestFirst⟩

/-- The line that opens a block leads into an empty block. -/
theorem takes_blockOpening {reader : Reader} (between : reader.place = .statement)
    (repetitions : UInt64) (line : Nat) :
    reader.takes line (joined (some [.word "REPEAT", .integer repetitions, .leftBrace])
        (some [.newline])) =
      some ⟨.statement, ⟨repetitions, reader.written⟩ :: reader.enclosing, .empty⟩ := by
  obtain ⟨place, enclosing, written⟩ := reader
  obtain rfl : place = .statement := between
  have opens : opensBlock "REPEAT" = true := by decide +kernel
  have word : (⟨.statement, enclosing, written⟩ : Reader).step ⟨.word "REPEAT", line⟩ =
      .ok ⟨.blockCount, enclosing, written⟩ := by
    simp only [step, stepStatement, opens, if_true]
    rfl
  refine (takes_token word _).trans ?_
  refine (takes_token rfl _).trans ?_
  refine (takes_token rfl _).trans (takes_token rfl [])

/-- The line that closes a block leads out of it and writes the block. -/
theorem takes_blockEnd (enclosing : List OpenBlock) (block : OpenBlock) (body : List Operation)
    (line : Nat) :
    (⟨.statement, block :: enclosing, ⟨body.reverse ++ []⟩⟩ : Reader).takes line
        (joined (some [.rightBrace]) (some [.newline])) =
      some ⟨.statement, enclosing, block.before.push (.block block.repetitions body)⟩ := by
  refine (takes_token rfl _).trans (takes_token ?_ [])
  have circuit : (⟨body.reverse ++ []⟩ : Builder).circuit = body := by
    rw [Builder.circuit, List.append_nil, List.reverse_reverse]
  rw [circuit]
  rfl

mutual

/-- The lines of an operation write it, if its arguments are small. -/
theorem takesLines_tokenLines {operation : Operation}
    (valid : ∀ instruction ∈ operation.instructions, instruction.validate = .ok ())
    (readable : ∀ instruction ∈ operation.instructions, instruction.IsReadable)
    {reader : Reader} (between : reader.place = .statement) (number : Nat) :
    reader.takesLines number operation.tokenLines =
      if ∀ instruction ∈ operation.instructions, instruction.HasSmallArguments then
        some (reader.wrote operation)
      else none := by
  cases operation with
  | single instruction =>
    have alone : (∀ other ∈ (Operation.single instruction).instructions, other.HasSmallArguments) ↔
        instruction.HasSmallArguments := List.forall_mem_singleton
    rw [Operation.tokenLines, takesLines, takes_instruction between (valid _ (.head _))
      (readable _ (.head _))]
    by_cases small : instruction.HasSmallArguments
    · rw [if_pos small, if_pos (alone.mpr small)]
      rfl
    · rw [if_neg small, if_neg (mt alone.mp small)]
      rfl
  | block repetitions body =>
    -- The body is read by a reader that has nothing written and one more block open.
    rw [Operation.tokenLines, takesLines, takes_blockOpening between, Option.bind_some,
      takesLines_append, takesLines_tokenLinesAll valid readable rfl]
    by_cases small : ∀ instruction ∈ Operation.instructionsAll body, instruction.HasSmallArguments
    · have all : ∀ instruction ∈ (Operation.block repetitions body).instructions,
          instruction.HasSmallArguments := small
      rw [if_pos small, if_pos all, Option.bind_some, takesLines]
      have ends := takes_blockEnd reader.enclosing ⟨repetitions, reader.written⟩ body
        (number + 1 + (Operation.tokenLinesAll body).length)
      exact congrArg (Option.bind · some) ends
    · have large : ¬ ∀ instruction ∈ (Operation.block repetitions body).instructions,
          instruction.HasSmallArguments := small
      rw [if_neg small, if_neg large]
      rfl

/-- The lines of operations write them, if their arguments are small. -/
theorem takesLines_tokenLinesAll {operations : List Operation}
    (valid : ∀ instruction ∈ Operation.instructionsAll operations, instruction.validate = .ok ())
    (readable : ∀ instruction ∈ Operation.instructionsAll operations, instruction.IsReadable)
    {reader : Reader} (between : reader.place = .statement) (number : Nat) :
    reader.takesLines number (Operation.tokenLinesAll operations) =
      if ∀ instruction ∈ Operation.instructionsAll operations, instruction.HasSmallArguments then
        some (reader.wroteAll operations)
      else none := by
  cases operations with
  | nil =>
    obtain ⟨place, enclosing, written⟩ := reader
    obtain rfl : place = .statement := between
    have none : ∀ instruction ∈ Operation.instructionsAll [], instruction.HasSmallArguments :=
      fun _ member => absurd member List.not_mem_nil
    rw [if_pos none]
    rfl
  | cons first rest =>
    have both : (∀ instruction ∈ Operation.instructionsAll (first :: rest),
        instruction.HasSmallArguments) ↔
          (∀ instruction ∈ first.instructions, instruction.HasSmallArguments) ∧
          ∀ instruction ∈ Operation.instructionsAll rest, instruction.HasSmallArguments :=
      List.forall_mem_append
    obtain ⟨firstValid, restValid⟩ := List.forall_mem_append.mp valid
    obtain ⟨firstReadable, restReadable⟩ := List.forall_mem_append.mp readable
    rw [Operation.tokenLinesAll, takesLines_append,
      takesLines_tokenLines firstValid firstReadable between]
    -- The rest is read if the first operation is, with that operation written already.
    by_cases head : ∀ instruction ∈ first.instructions, instruction.HasSmallArguments
    · rw [if_pos head, Option.bind_some, takesLines_tokenLinesAll restValid restReadable rfl]
      by_cases tail : ∀ instruction ∈ Operation.instructionsAll rest, instruction.HasSmallArguments
      · have written : rest.reverse ++ first :: reader.written.latestFirst =
            (first :: rest).reverse ++ reader.written.latestFirst := by
          rw [List.reverse_cons, List.append_assoc]
          rfl
        rw [if_pos tail, if_pos (both.mpr ⟨head, tail⟩), wroteAll, wroteAll, ← written]
        rfl
      · rw [if_neg tail, if_neg fun all => tail (both.mp all).2]
    · rw [if_neg head, if_neg fun all => head (both.mp all).1]
      rfl

end

end Reader

/-! ### Circuits -/

namespace Circuit

/-- Whether the names and targets of all instructions, in blocks too, are read as they
    are written. -/
def IsReadable (circuit : Circuit) : Prop :=
  ∀ instruction ∈ Operation.instructionsAll circuit, instruction.IsReadable

instance : DecidablePred IsReadable := fun circuit =>
  inferInstanceAs (Decidable (∀ instruction ∈ Operation.instructionsAll circuit,
    instruction.IsReadable))

/-- Whether all arguments, in blocks too, are finite and below 2^64. -/
def HasSmallArguments (circuit : Circuit) : Prop :=
  ∀ instruction ∈ Operation.instructionsAll circuit, instruction.HasSmallArguments

instance : DecidablePred HasSmallArguments := fun circuit =>
  inferInstanceAs (Decidable (∀ instruction ∈ Operation.instructionsAll circuit,
    instruction.HasSmallArguments))

/-- Reading is scanning, then taking the tokens, then closing what is open. -/
theorem toOption_parse (source : String) :
    (parse source).toOption = (Token.scanText source).toOption.bind fun lexemes =>
      (Reader.start.advance lexemes).toOption.bind fun reader => reader.finish.toOption := by
  rw [parse]
  cases Token.scanText source with
  | error fault => rfl
  | ok lexemes =>
    change (ofLexemes lexemes).toOption = (Reader.start.advance lexemes).toOption.bind
      fun reader => reader.finish.toOption
    rw [ofLexemes]
    cases Reader.start.advance lexemes with
    | error fault => rfl
    | ok reader => rfl

/-- A written circuit is read back if its arguments are finite and below 2^64, and
    otherwise it is refused. -/
theorem toOption_parse_text {circuit : Circuit} (valid : circuit.Valid)
    (readable : circuit.IsReadable) :
    (parse circuit.text).toOption = if circuit.HasSmallArguments then some circuit else none := by
  have words : ∀ instruction ∈ Operation.instructionsAll circuit,
      Token.isWord instruction.operator.name.toList = true := fun instruction member =>
    instruction.operator.isWord_name (readable instruction member).operator
  rw [toOption_parse, toOption_scanText words, ← Option.bind_assoc, Reader.bind_numbered?,
    Reader.takesLines_tokenLinesAll valid readable rfl]
  by_cases small : circuit.HasSmallArguments
  · have all : ∀ instruction ∈ Operation.instructionsAll circuit,
        instruction.HasSmallArguments := small
    have finished : (Reader.start.wroteAll circuit).finish = .ok circuit := by
      change Except.ok (circuit.reverse ++ []).reverse = _
      rw [List.append_nil, List.reverse_reverse]
    rw [if_pos all, if_pos small, Option.bind_some, finished]
    rfl
  · have some : ¬ ∀ instruction ∈ Operation.instructionsAll circuit,
        instruction.HasSmallArguments := small
    rw [if_neg some, if_neg small]
    rfl

/-- Reading undoes writing: the text of a circuit of any length and nesting is read as
    that circuit if its instructions pass their checks, its names and records can be read,
    and its arguments are finite and below 2^64. -/
theorem parse_text {circuit : Circuit} (valid : circuit.Valid) (readable : circuit.IsReadable)
    (small : circuit.HasSmallArguments) : parse circuit.text = .ok circuit := by
  have reads := toOption_parse_text valid readable
  rw [if_pos small] at reads
  exact eq_ok_of_toOption reads

/-- A circuit with every kind of target and argument, in blocks and outside. -/
def assortment : Circuit :=
  [.single ⟨.known .qubitCoords, [.plain 0], [-0.5, 3, 1e-7, 1e19]⟩,
   .block 3 [
     .single ⟨.known .measureProduct,
       [.pauli .X 0 true, .combiner, .pauli .Z 12 false, .pauli .Y 3 false], []⟩,
     .block 18446744073709551615 [
       .single ⟨.known (.controlled .Z .X), [.sweep 7, .plain 1, .record 2, .plain 4294967295], []⟩,
       .single ⟨.known (.measure .Z), [.qubit 5 true, .plain 6], [0.125]⟩],
     .block 0 []],
   .single ⟨.custom "_rec2", [.combiner, .record 1, .combiner, .combiner, .sweep 0], [-0.0]⟩]

/-- An assortment of targets, arguments and nested blocks is read back from its text. -/
theorem parse_text_assortment :
    assortment.Valid ∧ assortment.IsReadable ∧ assortment.HasSmallArguments ∧
      parse assortment.text = .ok assortment := by
  have valid : assortment.Valid := by decide +kernel
  have readable : assortment.IsReadable := by decide +kernel
  have small : assortment.HasSmallArguments := by decide +kernel
  exact ⟨valid, readable, small, parse_text valid readable small⟩

end Circuit

end StabilizerLayers
