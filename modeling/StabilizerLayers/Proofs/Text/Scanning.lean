import Mathlib.Data.List.TakeDrop
import StabilizerLayers.Proofs.Decimal.Positional
import StabilizerLayers.Text.Token

/-!
# Scanning in parts

A token takes as many characters as it can, so a line cannot be cut anywhere. It can be
cut where the next character neither continues a word nor is a point, because no token
reaches across such a place. `Scans` says what a part of a line is read as whenever it is
followed by such a character or by the end of the line. Parts are put together by the
rules below, and the lines of a text by `toOption_scanLines`.

Of a part that cannot be read nothing but this fact is kept, hence the options.
-/

namespace StabilizerLayers

namespace Token

/-! ### Characters -/

/-- A digit does not start a word. -/
theorem startsWord_of_isDigit {character : Char} (digit : character.isDigit = true) :
    startsWord character = false := by
  apply Bool.eq_false_iff.mpr
  intro starts
  have last : character.toNat ≤ 57 := (Char.isDigit_iff_toNat.mp digit).2
  obtain letter | underscore := Bool.or_eq_true_iff.mp starts
  · obtain upper | lower := Bool.or_eq_true_iff.mp letter
    · have first : 65 ≤ character.toNat := (of_decide_eq_true upper).1
      omega
    · have first : 97 ≤ character.toNat := of_decide_eq_true (Bool.and_eq_true_iff.mp lower).1
      omega
  · rw [eq_of_beq underscore] at digit
    contradiction

/-- A digit continues a word. -/
theorem continuesWord_of_isDigit {character : Char} (digit : character.isDigit = true) :
    continuesWord character = true := by
  rw [continuesWord, Char.isAlphanum, digit, Bool.or_true, Bool.true_or]

/-- What starts a word also continues one. -/
theorem continuesWord_of_startsWord {character : Char} (starts : startsWord character = true) :
    continuesWord character = true := by
  rw [continuesWord, Char.isAlphanum]
  obtain letter | underscore := Bool.or_eq_true_iff.mp starts
  · rw [letter, Bool.true_or, Bool.true_or]
  · rw [underscore, Bool.or_true]

/-- A character of a word is no blank, opens no comment and ends no line. -/
theorem plain_of_continuesWord {character : Char} (continues : continuesWord character = true) :
    isBlank character = false ∧ (character == '#') = false ∧ character ≠ '\n' := by
  refine ⟨?_, ?_, ?_⟩
  · apply Bool.eq_false_iff.mpr
    intro blank
    simp only [isBlank, Bool.or_eq_true, beq_iff_eq] at blank
    obtain (rfl | rfl) | rfl := blank <;> contradiction
  · apply Bool.eq_false_iff.mpr
    intro hash
    rw [eq_of_beq hash] at continues
    contradiction
  · rintro rfl
    contradiction

/-- A mark is nothing else. -/
theorem plain_of_mark? {character : Char} {token : Token} (mark : mark? character = some token) :
    isBlank character = false ∧ (character == '#') = false ∧ character.isDigit = false ∧
      startsWord character = false ∧ character ≠ '\n' := by
  unfold mark? at mark
  split at mark
  all_goals first
    | decide
    | contradiction

/-- A mark is a token of one character. -/
theorem read_mark {first : Char} {token : Token} (mark : mark? first = some token)
    (rest : List Char) : read first rest = .token token 0 := by
  obtain ⟨noBlank, noComment, noDigit, noWord, -⟩ := plain_of_mark? mark
  simp only [read, noBlank, noComment, noDigit, noWord, mark, Bool.false_eq_true, if_false]

/-! ### Places where a line can be cut -/

/-- Whether no token before these characters reaches into them. -/
def Apart : List Char → Prop
  | [] => True
  | first :: _ => continuesWord first = false ∧ first ≠ '.'

/-- Characters into which no token reaches keep it so whatever such characters follow. -/
theorem Apart.append {characters rest : List Char} (apart : Apart characters)
    (restApart : Apart rest) : Apart (characters ++ rest) := by
  cases characters with
  | nil => exact restApart
  | cons first others => exact apart

/-- Digits are taken up to where no digit follows. -/
theorem spanDigits_append {digits rest : List Char}
    (all : ∀ character ∈ digits, character.isDigit = true)
    (ends : ∀ first ∈ rest.head?, first.isDigit = false) :
    Decimal.spanDigits (digits ++ rest) = (digits, rest) := by
  rw [Decimal.spanDigits, List.span_eq_takeWhile_dropWhile, List.takeWhile_append_of_pos all,
    List.dropWhile_append_of_pos all]
  cases rest with
  | nil => rw [List.takeWhile_nil, List.dropWhile_nil, List.append_nil]
  | cons first others =>
    have stop : ¬ first.isDigit = true := by
      rw [ends first rfl]
      decide
    rw [List.takeWhile_cons_of_neg stop, List.dropWhile_cons_of_neg stop, List.append_nil]

/-- Characters into which no token reaches do not start with a digit. -/
theorem Apart.isDigit_head {rest : List Char} (apart : Apart rest) :
    ∀ first ∈ rest.head?, first.isDigit = false := by
  rintro first head
  cases rest with
  | nil => cases head
  | cons other others =>
    cases head
    apply Bool.eq_false_iff.mpr
    intro digit
    exact Bool.eq_false_iff.mp apart.1 (continuesWord_of_isDigit digit)

/-- Characters into which no token reaches do not start with an exponent. -/
theorem Apart.exponent?_eq_none {rest : List Char} (apart : Apart rest) :
    Decimal.exponent? rest = none := by
  cases rest with
  | nil => rfl
  | cons first others =>
    have noMark : ¬ (first = 'e' ∨ first = 'E') := by
      rintro (rfl | rfl)
      · exact absurd apart.1 (by decide)
      · exact absurd apart.1 (by decide)
    simp only [Decimal.exponent?, noMark, if_false]

/-! ### Parts of a line -/

/-- Tokens with the line on which they stand. -/
def onLine (line : Nat) (tokens : List Token) : List Lexeme := tokens.map (⟨·, line⟩)

/-- Tokens one behind the other stand on one line if both do. -/
theorem onLine_append (line : Nat) (first second : List Token) :
    onLine line (first ++ second) = onLine line first ++ onLine line second := List.map_append

/-- Tokens of two parts, if both can be read. -/
def joined (first? second? : Option (List Token)) : Option (List Token) :=
  first?.bind fun first => second?.map (first ++ ·)

/-- What a part of a line is read as, wherever the line goes on apart from it. -/
structure Scans (characters : List Char) (tokens? : Option (List Token)) : Prop where
  oneLine : '\n' ∉ characters
  scan_append : ∀ (line : Nat) (rest : List Char), Apart rest →
    (scan line 0 (characters ++ rest)).toOption =
      tokens?.bind fun tokens => (scan line 0 rest).toOption.map (onLine line tokens ++ ·)

/-- Characters that have been taken already are skipped. -/
theorem scan_skipped (line skipped : Nat) (characters : List Char) :
    scan line skipped characters = scan line 0 (characters.drop skipped) := by
  induction skipped generalizing characters with
  | zero => rfl
  | succ skipped inductionHypothesis =>
    cases characters with
    | nil => rw [List.drop_nil, scan, scan]
    | cons first rest => rw [List.drop_succ_cons, scan, inductionHypothesis]

/-- A token comes before those of the characters behind it. -/
theorem scan_token {first : Char} {rest : List Char} {token : Token} {more : Nat}
    (reads : read first rest = .token token more) (line : Nat) :
    scan line 0 (first :: rest) =
      (scan line 0 (rest.drop more)).map (⟨token, line⟩ :: ·) := by
  simp only [scan, reads, scan_skipped line more]
  cases scan line 0 (rest.drop more) with
  | error fault => rfl
  | ok lexemes => rfl

/-- A token in front is scanned if what follows it is. -/
theorem toOption_scan_token {first : Char} {rest : List Char} {token : Token} {more : Nat}
    (reads : read first rest = .token token more) (line : Nat) :
    (scan line 0 (first :: rest)).toOption =
      (scan line 0 (rest.drop more)).toOption.map (⟨token, line⟩ :: ·) := by
  rw [scan_token reads]
  cases scan line 0 (rest.drop more) with
  | error fault => rfl
  | ok lexemes => rfl

/-- Characters that cannot be read fail the line. -/
theorem toOption_scan_unreadable {first : Char} {rest : List Char} {text : String}
    (reads : read first rest = .unreadable text) (line : Nat) :
    (scan line 0 (first :: rest)).toOption = none := by
  simp only [scan, reads]
  rfl

namespace Scans

/-- Nothing is scanned as nothing. -/
theorem nil : Scans [] (some []) where
  oneLine := List.not_mem_nil
  scan_append line rest _ := by
    rw [List.nil_append]
    cases (scan line 0 rest).toOption with
    | none => rfl
    | some lexemes => rfl

/-- Two parts that can be cut between. -/
theorem append {first second : List Char} {before? after? : Option (List Token)}
    (firstScans : Scans first before?) (secondScans : Scans second after?) (apart : Apart second) :
    Scans (first ++ second) (joined before? after?) where
  oneLine := by
    rw [List.mem_append]
    rintro (inFirst | inSecond)
    · exact firstScans.oneLine inFirst
    · exact secondScans.oneLine inSecond
  scan_append line rest restApart := by
    -- The first part is followed by the second one and whatever follows that.
    rw [List.append_assoc, firstScans.scan_append line _ (apart.append restApart),
      secondScans.scan_append line rest restApart]
    cases before? with
    | none => rfl
    | some before =>
      cases after? with
      | none => rfl
      | some after =>
        cases (scan line 0 rest).toOption with
        | none => rfl
        | some lexemes =>
          simp only [joined, Option.bind_some, Option.map_some, onLine_append, List.append_assoc]

/-- A blank in front is passed over. -/
theorem blank {first : Char} {others : List Char} {tokens? : Option (List Token)}
    (isBlank : isBlank first = true) (scans : Scans others tokens?) :
    Scans (first :: others) tokens? where
  oneLine := by
    rw [List.mem_cons]
    rintro (rfl | inOthers)
    · contradiction
    · exact scans.oneLine inOthers
  scan_append line rest apart := by
    rw [← scans.scan_append line rest apart, List.cons_append, scan]
    simp only [read, isBlank, if_true]

/-- Nothing reaches across a mark, so any part can follow it. -/
theorem mark {first : Char} {others : List Char} {token : Token} {tokens? : Option (List Token)}
    (isMark : mark? first = some token) (scans : Scans others tokens?) :
    Scans (first :: others) (joined (some [token]) tokens?) := by
  obtain ⟨-, -, -, -, noEnd⟩ := plain_of_mark? isMark
  refine ⟨?_, ?_⟩
  · rw [List.mem_cons]
    rintro (rfl | inOthers)
    · exact noEnd rfl
    · exact scans.oneLine inOthers
  · intro line rest apart
    rw [List.cons_append, toOption_scan_token (read_mark isMark _), List.drop_zero,
      scans.scan_append line rest apart]
    cases tokens? with
    | none => rfl
    | some tokens =>
      cases (scan line 0 rest).toOption with
      | none => rfl
      | some lexemes => rfl

/-- A token that takes exactly these characters. -/
theorem token {first : Char} {more : List Char} {token : Token} (oneLine : '\n' ∉ first :: more)
    (reads : ∀ rest, Apart rest → read first (more ++ rest) = .token token more.length) :
    Scans (first :: more) (some [token]) where
  oneLine := oneLine
  scan_append line rest apart := by
    rw [List.cons_append, toOption_scan_token (reads rest apart), List.drop_left]
    rfl

/-- Characters that cannot be read. -/
theorem unreadable {first : Char} {more : List Char} {text : String}
    (oneLine : '\n' ∉ first :: more)
    (reads : ∀ rest, Apart rest → read first (more ++ rest) = .unreadable text) :
    Scans (first :: more) none where
  oneLine := oneLine
  scan_append line rest apart := by
    rw [List.cons_append, toOption_scan_unreadable (reads rest apart)]
    rfl

end Scans

/-! ### Words -/

/-- Whether characters form one word. -/
def isWord : List Char → Bool
  | [] => false
  | first :: more => startsWord first && more.all continuesWord

/-- A word takes all its characters if none behind them continues it. -/
theorem read_word {first : Char} {more rest : List Char} (isWord : isWord (first :: more) = true)
    (apart : Apart rest) :
    read first (more ++ rest) = .token (.word (String.ofList (first :: more))) more.length := by
  obtain ⟨starts, all⟩ := Bool.and_eq_true_iff.mp isWord
  have continues := List.all_eq_true.mp all
  obtain ⟨noBlank, noComment, -⟩ := plain_of_continuesWord (continuesWord_of_startsWord starts)
  have noDigit : first.isDigit = false := by
    apply Bool.eq_false_iff.mpr
    intro digit
    rw [startsWord_of_isDigit digit] at starts
    contradiction
  have taken : (more ++ rest).takeWhile continuesWord = more := by
    rw [List.takeWhile_append_of_pos continues]
    cases rest with
    | nil => rw [List.takeWhile_nil, List.append_nil]
    | cons other others =>
      rw [List.takeWhile_cons_of_neg (Bool.eq_false_iff.mp apart.1), List.append_nil]
  simp only [read, noBlank, noComment, noDigit, starts, taken, Bool.false_eq_true, if_false,
    if_true]

/-- A word is scanned as one token. -/
theorem Scans.word {characters : List Char} (isWord : isWord characters = true) :
    Scans characters (some [.word (String.ofList characters)]) := by
  cases characters with
  | nil => contradiction
  | cons first more =>
    obtain ⟨starts, all⟩ := Bool.and_eq_true_iff.mp isWord
    apply Scans.token
    · rw [List.mem_cons]
      rintro (rfl | inMore)
      · contradiction
      · exact (plain_of_continuesWord (List.all_eq_true.mp all _ inMore)).2.2 rfl
    · exact fun rest apart => read_word isWord apart

/-! ### Numbers -/

/-- The token of a number with these digits before and behind the point. An integer has
    to fit into 64 bits. -/
def number? (whole fraction : List Char) : Option Token :=
  if fraction = [] then
    if Nat.ofDigitChars 10 whole 0 < UInt64.size then
      some (.integer (UInt64.ofNat (Nat.ofDigitChars 10 whole 0)))
    else none
  else some (.decimal (Decimal.ofDigits whole fraction 0).toFloat)

/-- Digits that no point follows are an integer. -/
theorem readNumber_whole {whole rest : List Char}
    (digits : ∀ character ∈ whole, character.isDigit = true) (apart : Apart rest) :
    readNumber (whole ++ rest) =
      if Nat.ofDigitChars 10 whole 0 < UInt64.size then
        .token (.integer (UInt64.ofNat (Nat.ofDigitChars 10 whole 0))) (whole.length - 1)
      else .unreadable (String.ofList whole) := by
  have taken : (whole ++ rest).length - rest.length - 1 = whole.length - 1 := by
    rw [List.length_append, Nat.add_sub_cancel]
  simp only [readNumber, spanDigits_append digits apart.isDigit_head, apart.exponent?_eq_none,
    taken]
  split
  · exact absurd rfl apart.2
  · rfl

/-- Digits with a point are a decimal. -/
theorem readNumber_pointed {whole fraction rest : List Char}
    (wholeDigits : ∀ character ∈ whole, character.isDigit = true)
    (fractionDigits : ∀ character ∈ fraction, character.isDigit = true) (apart : Apart rest) :
    readNumber (whole ++ '.' :: (fraction ++ rest)) =
      .token (.decimal (Decimal.ofDigits whole fraction 0).toFloat)
        (whole.length + fraction.length) := by
  have point : ∀ character ∈ ('.' :: (fraction ++ rest)).head?, character.isDigit = false := by
    rintro character ⟨⟩
    decide
  have taken : (whole ++ '.' :: (fraction ++ rest)).length - rest.length - 1 =
      whole.length + fraction.length := by
    rw [List.length_append, List.length_cons, List.length_append]
    omega
  simp only [readNumber, spanDigits_append wholeDigits point,
    spanDigits_append fractionDigits apart.isDigit_head, apart.exponent?_eq_none, taken]

/-- Digits do not end a line. -/
theorem not_mem_of_digits {digits : List Char}
    (all : ∀ character ∈ digits, character.isDigit = true) : '\n' ∉ digits := fun ends =>
  absurd (all _ ends) (by decide)

/-- A number starts with a digit, so it is read as a number. -/
theorem read_digit {first : Char} (digit : first.isDigit = true) (rest : List Char) :
    read first rest = readNumber (first :: rest) := by
  obtain ⟨noBlank, noComment, -⟩ := plain_of_continuesWord (continuesWord_of_isDigit digit)
  simp only [read, noBlank, noComment, digit, Bool.false_eq_true, if_false, if_true]

/-- Digits, perhaps with a point and more digits, are scanned as one number. -/
theorem Scans.number {whole fraction : List Char} (nonempty : whole ≠ [])
    (wholeDigits : ∀ character ∈ whole, character.isDigit = true)
    (fractionDigits : ∀ character ∈ fraction, character.isDigit = true) :
    Scans (whole ++ Decimal.pointed fraction) ((number? whole fraction).map ([·])) := by
  obtain ⟨first, more, rfl⟩ := List.exists_cons_of_ne_nil nonempty
  have digit := wholeDigits first (List.mem_cons_self ..)
  have oneLine := not_mem_of_digits wholeDigits
  cases fraction with
  | nil =>
    rw [Decimal.pointed, List.append_nil, number?, if_pos rfl]
    split
    · rename_i small
      apply Scans.token oneLine
      intro rest apart
      rw [read_digit digit, ← List.cons_append, readNumber_whole wholeDigits apart, if_pos small]
      rfl
    · rename_i large
      apply Scans.unreadable oneLine
      intro rest apart
      rw [read_digit digit, ← List.cons_append, readNumber_whole wholeDigits apart, if_neg large]
  -- With a point the number is a decimal, and no size is too large.
  | cons place places =>
    rw [number?, if_neg (List.cons_ne_nil _ _), Decimal.pointed, List.cons_append]
    apply Scans.token
    · rw [← List.cons_append, List.mem_append]
      rintro (inWhole | inFraction)
      · exact oneLine inWhole
      · obtain isPoint | inPlaces := List.mem_cons.mp inFraction
        · contradiction
        · exact not_mem_of_digits fractionDigits inPlaces
    · intro rest apart
      rw [read_digit digit, List.append_assoc, List.cons_append, ← List.cons_append,
        readNumber_pointed wholeDigits fractionDigits apart]
      simp only [List.length_append, List.length_cons, Reading.token.injEq, true_and]
      omega

/-! ### Lines -/

/-- A character that ends no line belongs to the line. -/
theorem splitLines_cons {character : Char} (goesOn : character ≠ '\n') (current rest : List Char) :
    splitLines current (character :: rest) = splitLines (character :: current) rest := by
  rw [splitLines]
  exact goesOn

/-- A text has one line more than line ends. -/
theorem length_splitLines (current characters : List Char) :
    (splitLines current characters).length = characters.count '\n' + 1 := by
  induction characters generalizing current with
  | nil => rfl
  | cons character rest inductionHypothesis =>
    by_cases ends : character = '\n'
    · subst ends
      rw [splitLines, List.length_cons, inductionHypothesis, List.count_cons_self]
    · rw [splitLines_cons ends, inductionHypothesis, List.count_cons_of_ne ends]

/-- Every text has a line. -/
theorem splitLines_ne_nil (current characters : List Char) :
    splitLines current characters ≠ [] := by
  intro none
  have length := length_splitLines current characters
  rw [none, List.length_nil] at length
  omega

/-- The end of a line cuts a text. -/
theorem splitLines_line {line : List Char} (oneLine : '\n' ∉ line) (current rest : List Char) :
    splitLines current (line ++ '\n' :: rest) =
      (current.reverse ++ line) :: splitLines [] rest := by
  induction line generalizing current with
  | nil => rw [List.nil_append, splitLines, List.append_nil]
  | cons first others inductionHypothesis =>
    have goesOn : first ≠ '\n' := fun ends => oneLine (ends ▸ List.mem_cons_self ..)
    rw [List.cons_append, splitLines]
    · rw [inductionHypothesis (fun inOthers => oneLine (List.mem_cons_of_mem _ inOthers)),
        List.reverse_cons, List.append_assoc, List.singleton_append]
    · exact goesOn

/-- A text in which every line is ended has an empty line behind them. -/
theorem splitLines_flatMap {lines : List (List Char)} {tokenLines : List (Option (List Token))}
    (scans : List.Forall₂ Scans lines tokenLines) :
    splitLines [] (lines.flatMap (· ++ ['\n'])) = lines ++ [[]] := by
  induction scans with
  | nil => rfl
  | cons firstScans _ inductionHypothesis =>
    rw [List.flatMap_cons, List.append_assoc, List.singleton_append,
      splitLines_line firstScans.oneLine, inductionHypothesis]
    rfl

/-- Tokens of ended lines, counted from `number`. -/
def numbered? (number : Nat) : List (Option (List Token)) → Option (List Lexeme)
  | [] => some []
  | tokens? :: rest =>
    tokens?.bind fun tokens =>
      (numbered? (number + 1) rest).map (onLine number tokens ++ ⟨newline, number⟩ :: ·)

/-- A part that stands alone is scanned as its tokens. -/
theorem toOption_scan {characters : List Char} {tokens? : Option (List Token)}
    (scans : Scans characters tokens?) (line : Nat) :
    (scan line 0 characters).toOption = tokens?.map (onLine line) := by
  have whole := scans.scan_append line [] trivial
  rw [List.append_nil] at whole
  rw [whole]
  cases tokens? with
  | none => rfl
  | some tokens => exact congrArg some (List.append_nil _)

/-- What can be read is read as one thing only. -/
theorem Scans.unique {characters : List Char} {first? second? : Option (List Token)}
    (first : Scans characters first?) (second : Scans characters second?) : first? = second? := by
  have same : first?.map (onLine 0) = second?.map (onLine 0) := by
    rw [← toOption_scan first 0, toOption_scan second 0]
  have tokens : ∀ tokens : List Token, (onLine 0 tokens).map Lexeme.token = tokens := by
    intro tokens
    rw [onLine, List.map_map]
    exact List.map_id tokens
  have back := congrArg (Option.map (List.map Lexeme.token)) same
  rw [Option.map_map, Option.map_map] at back
  have identity : List.map Lexeme.token ∘ onLine 0 = id := funext tokens
  rwa [identity, Option.map_id, id, id] at back

/-- A line that others follow is scanned first and ended by a token. -/
theorem toOption_scanLines_cons {rest : List (List Char)} (goesOn : rest ≠ []) (line : List Char)
    (number : Nat) :
    (scanLines number (line :: rest)).toOption =
      (scan number 0 line).toOption.bind fun lexemes =>
        (scanLines (number + 1) rest).toOption.map (lexemes ++ ⟨newline, number⟩ :: ·) := by
  obtain ⟨next, more, rfl⟩ := List.exists_cons_of_ne_nil goesOn
  simp only [scanLines]
  cases scan number 0 line with
  | error fault => rfl
  | ok lexemes =>
    cases scanLines (number + 1) (next :: more) with
    | error fault => rfl
    | ok others => rfl

/-- Ended lines are scanned one by one. -/
theorem toOption_scanLines {lines : List (List Char)} {tokenLines : List (Option (List Token))}
    (scans : List.Forall₂ Scans lines tokenLines) (number : Nat) :
    (scanLines number (lines ++ [[]])).toOption = numbered? number tokenLines := by
  induction scans generalizing number with
  | nil => rfl
  | @cons line tokens? rest restTokens firstScans _ inductionHypothesis =>
    have goesOn : rest ++ [[]] ≠ [] := List.append_ne_nil_of_right_ne_nil rest (by decide)
    rw [List.cons_append, toOption_scanLines_cons goesOn, toOption_scan firstScans,
      inductionHypothesis, numbered?]
    cases tokens? with
    | none => rfl
    | some tokens => rfl

end Token

end StabilizerLayers
