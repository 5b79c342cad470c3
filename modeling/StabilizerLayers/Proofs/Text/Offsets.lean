import Mathlib.Data.List.TakeWhile
import StabilizerLayers.Proofs.Text.Scanning

/-!
# Tokens and the bytes at which they start

Lines can be told in two ways. A text can be cut into lines which are scanned one by one, and
it can be scanned as a whole, so that a token is found at a byte whose line is looked up in
the list of the bytes at which lines start. Both give the same tokens on the same lines.

The scan of a whole text sees more than the line it is in. A token is the same nevertheless:
what can be read of it stops at the end of the line (`read_append`).
-/

namespace StabilizerLayers

/-! ### Bytes -/

/-- How many bytes characters take. -/
def byteCount (characters : List Char) : Nat := (String.ofList characters).utf8ByteSize

/-- No characters take no bytes. -/
@[simp]
theorem byteCount_nil : byteCount [] = 0 := rfl

/-- A character takes the bytes of its encoding. -/
@[simp]
theorem byteCount_cons (first : Char) (rest : List Char) :
    byteCount (first :: rest) = first.utf8Size + byteCount rest := by
  rw [byteCount, String.ofList_cons, String.utf8ByteSize_append, String.utf8ByteSize_singleton]
  rfl

/-- Characters one behind the other take the bytes of both. -/
@[simp]
theorem byteCount_append (first second : List Char) :
    byteCount (first ++ second) = byteCount first + byteCount second := by
  rw [byteCount, String.ofList_append, String.utf8ByteSize_append]
  rfl

/-! ### Lines of bytes -/

/-- The bytes behind line ends, in characters that start at a byte. -/
def lineStartsFrom (start : Nat) : List Char → List Nat
  | [] => []
  | first :: rest =>
    if first = '\n' then (start + 1) :: lineStartsFrom (start + first.utf8Size) rest
    else lineStartsFrom (start + first.utf8Size) rest

/-- The bytes at which the lines of a text start. -/
def lineStarts (source : String) : List Nat := 0 :: lineStartsFrom 0 source.toList

/-- The line of a byte, counted from one: how many lines start up to there. -/
def lineAt (starts : List Nat) (offset : Nat) : Nat :=
  (starts.takeWhile (· ≤ offset)).length

/-- The line starts of characters one behind the other are those of both, moved on by the bytes of
    the first. -/
theorem lineStartsFrom_append (start : Nat) (first second : List Char) :
    lineStartsFrom start (first ++ second) =
      lineStartsFrom start first ++ lineStartsFrom (start + byteCount first) second := by
  induction first generalizing start with
  | nil => rfl
  | cons character rest inductionHypothesis =>
    simp only [List.cons_append, lineStartsFrom, inductionHypothesis, byteCount_cons,
      Nat.add_assoc]
    split
    · rfl
    · rfl

/-- As many lines start within characters as line ends occur in them. -/
theorem length_lineStartsFrom (start : Nat) (characters : List Char) :
    (lineStartsFrom start characters).length = characters.count '\n' := by
  induction characters generalizing start with
  | nil => rfl
  | cons first rest inductionHypothesis =>
    rw [lineStartsFrom]
    split
    · rename_i ends
      rw [List.length_cons, inductionHypothesis, ends, List.count_cons_self]
    · rename_i goesOn
      rw [inductionHypothesis, List.count_cons_of_ne goesOn]

/-- A line starts behind a line end, so not where the characters start and not behind them. -/
theorem bounds_of_mem_lineStartsFrom {start other : Nat} {characters : List Char}
    (member : other ∈ lineStartsFrom start characters) :
    start < other ∧ other ≤ start + byteCount characters := by
  induction characters generalizing start with
  | nil => cases member
  | cons first rest inductionHypothesis =>
    have size := first.utf8Size_pos
    rw [byteCount_cons]
    rw [lineStartsFrom] at member
    split at member
    · obtain rfl | later := List.mem_cons.mp member
      · omega
      · have bounds := inductionHypothesis later
        omega
    · have bounds := inductionHypothesis member
      omega

/-- The line of a byte at which a character starts is told by the line ends before it: all
    lines that start in these characters do so up to the byte, and all others behind it. -/
theorem lineAt_lineStarts {source : String} {before after : List Char}
    (whole : source.toList = before ++ after) :
    lineAt (lineStarts source) (byteCount before) = before.count '\n' + 1 := by
  have starts : lineStarts source =
      (0 :: lineStartsFrom 0 before) ++ lineStartsFrom (byteCount before) after := by
    rw [lineStarts, whole, lineStartsFrom_append, Nat.zero_add, List.cons_append]
  have passed : ∀ start ∈ 0 :: lineStartsFrom 0 before,
      decide (start ≤ byteCount before) = true := by
    intro start member
    apply decide_eq_true
    obtain rfl | later := List.mem_cons.mp member
    · exact Nat.zero_le _
    · have bounds := bounds_of_mem_lineStartsFrom later
      omega
  have ahead : (lineStartsFrom (byteCount before) after).takeWhile (· ≤ byteCount before) = [] := by
    cases later : lineStartsFrom (byteCount before) after with
    | nil => rfl
    | cons next others =>
      have member : next ∈ lineStartsFrom (byteCount before) after :=
        later ▸ List.mem_cons_self
      have bounds := bounds_of_mem_lineStartsFrom member
      apply List.takeWhile_cons_of_neg
      simp only [decide_eq_true_eq]
      omega
  rw [lineAt, starts, List.takeWhile_append_of_pos passed, ahead, List.append_nil,
    List.length_cons, length_lineStartsFrom]

/-- The letter of the comment takes two bytes. -/
example : lineStarts "# é\nM 0" = [0, 5] := by decide

/-! ### Scanning a whole text -/

/-- A token and the byte at which it starts. -/
structure Span where
  token : Token
  start : Nat

/-- The token on the line of its byte. -/
def Span.lexeme (starts : List Nat) (span : Span) : Lexeme :=
  ⟨span.token, lineAt starts span.start⟩

/-- A place that cannot be read and the byte at which it starts. -/
structure Misread where
  start : Nat
  text : String

namespace Token

/-- What starts at the first of these characters of a text: here the end of a line is a
    token like others. -/
def readText (first : Char) (rest : List Char) : Reading :=
  if first = '\n' then .token newline 0 else read first rest

/-- Tokens of characters that start at a byte, after skipping those of a token or comment that
    has been read already. -/
def spansFrom (start : Nat) : Nat → List Char → Except Misread (List Span)
  | _, [] => .ok []
  | skipped + 1, first :: rest => spansFrom (start + first.utf8Size) skipped rest
  | 0, first :: rest =>
    match readText first rest with
    | .blank => spansFrom (start + first.utf8Size) 0 rest
    | .comment =>
      spansFrom (start + first.utf8Size) (rest.takeWhile (· ≠ '\n')).length rest
    | .unreadable text => .error ⟨start, text⟩
    | .token token more =>
      (spansFrom (start + first.utf8Size) more rest).map (⟨token, start⟩ :: ·)

/-- Tokens of a text with the bytes at which they start. -/
def spans (source : String) : Except Misread (List Span) := spansFrom 0 0 source.toList

/-- Tokens and refusals with lines in place of bytes. -/
def located (starts : List Nat) : Except Misread (List Span) → Except ParseError (List Lexeme)
  | .error misread => .error (.unreadable (lineAt starts misread.start) misread.text)
  | .ok spans => .ok (spans.map (Span.lexeme starts))

/-- A token in front gets the line of its byte. -/
theorem located_cons (starts : List Nat) (span : Span) (scanned : Except Misread (List Span)) :
    located starts (scanned.map (span :: ·)) =
      (located starts scanned).map (span.lexeme starts :: ·) := by
  cases scanned with
  | error misread => rfl
  | ok spans => rfl

/-! ### Reading stops at the end of a line -/

/-- The sign in front of an exponent and what follows it. -/
def exponentSign : List Char → Bool × List Char
  | '-' :: digits => (true, digits)
  | '+' :: digits => (false, digits)
  | digits => (false, digits)

/-- The exponent behind its sign. -/
def signedPower? (negative : Bool) (unsigned : List Char) : Option (Int × List Char) :=
  match Decimal.spanDigits unsigned with
  | ([], _) => none
  | (digits, rest) =>
    let power : Int := Nat.ofDigitChars 10 digits 0
    some (if negative then -power else power, rest)

/-- An exponent is a mark, perhaps a sign, and digits. -/
theorem exponent?_cons (mark : Char) (rest : List Char) :
    Decimal.exponent? (mark :: rest) =
      if mark = 'e' ∨ mark = 'E' then
        signedPower? (exponentSign rest).1 (exponentSign rest).2
      else none := rfl

/-- A number whose digits are not followed by a point. -/
theorem readNumber_of_ne {characters whole after : List Char}
    (digits : Decimal.spanDigits characters = (whole, after))
    (noPoint : ∀ fraction, after ≠ '.' :: fraction) :
    readNumber characters =
      match Decimal.exponent? after with
      | some (power, rest) =>
        .token (.decimal (Decimal.ofDigits whole [] power).toFloat)
          (characters.length - rest.length - 1)
      | none =>
        if Nat.ofDigitChars 10 whole 0 < UInt64.size then
          .token (.integer (UInt64.ofNat (Nat.ofDigitChars 10 whole 0)))
            (characters.length - after.length - 1)
        else .unreadable (String.ofList whole) := by
  cases power : Decimal.exponent? after with
  | none => simp only [readNumber, digits, power]
  | some read => simp only [readNumber, digits, power]

section LineEnd

variable {tail : List Char} (ends : ∀ first ∈ tail.head?, first = '\n')
include ends

/-- What is taken while a line goes on ends with the line. -/
theorem takeWhile_append_of_ends {continues : Char → Bool} (stops : continues '\n' = false)
    (line : List Char) : (line ++ tail).takeWhile continues = line.takeWhile continues := by
  induction line with
  | nil =>
    cases tail with
    | nil => rfl
    | cons first rest =>
      obtain rfl := ends first rfl
      exact List.takeWhile_cons_of_neg (Bool.eq_false_iff.mp stops)
  | cons first rest inductionHypothesis =>
    rw [List.cons_append, List.takeWhile_cons, List.takeWhile_cons, inductionHypothesis]

/-- What is left of a line has the next line behind it. -/
theorem dropWhile_append_of_ends {continues : Char → Bool} (stops : continues '\n' = false)
    (line : List Char) :
    (line ++ tail).dropWhile continues = line.dropWhile continues ++ tail := by
  induction line with
  | nil =>
    cases tail with
    | nil => rfl
    | cons first rest =>
      obtain rfl := ends first rfl
      exact List.dropWhile_cons_of_neg (Bool.eq_false_iff.mp stops)
  | cons first rest inductionHypothesis =>
    rw [List.cons_append, List.dropWhile_cons, List.dropWhile_cons, inductionHypothesis]
    split
    · rfl
    · rfl

/-- Digits end with the line. -/
theorem spanDigits_append_of_ends (line : List Char) :
    Decimal.spanDigits (line ++ tail) =
      ((Decimal.spanDigits line).1, (Decimal.spanDigits line).2 ++ tail) := by
  have stops : Char.isDigit '\n' = false := by decide
  simp only [Decimal.spanDigits, List.span_eq_takeWhile_dropWhile,
    takeWhile_append_of_ends ends stops, dropWhile_append_of_ends ends stops]

/-- No token reaches across the end of a line. -/
theorem apart_of_ends : Apart tail := by
  cases tail with
  | nil => trivial
  | cons first rest =>
    obtain rfl := ends first rfl
    exact ⟨by decide, by decide⟩

/-- The sign of an exponent is found on its own line. -/
theorem exponentSign_append_of_ends (line : List Char) :
    exponentSign (line ++ tail) = ((exponentSign line).1, (exponentSign line).2 ++ tail) := by
  cases line with
  | nil =>
    cases tail with
    | nil => rfl
    | cons first rest =>
      obtain rfl := ends first rfl
      rfl
  | cons sign digits =>
    by_cases minus : sign = '-'
    · subst minus
      rfl
    by_cases plus : sign = '+'
    · subst plus
      rfl
    have unsigned (rest : List Char) : exponentSign (sign :: rest) = (false, sign :: rest) := by
      rw [exponentSign]
      · exact fun _ same => minus (List.cons.inj same).1
      · exact fun _ same => plus (List.cons.inj same).1
    rw [List.cons_append, unsigned, unsigned, List.cons_append]

/-- The digits of an exponent are found on their own line. -/
theorem signedPower?_append_of_ends (negative : Bool) (unsigned : List Char) :
    signedPower? negative (unsigned ++ tail) =
      (signedPower? negative unsigned).map fun read => (read.1, read.2 ++ tail) := by
  rw [signedPower?, signedPower?, spanDigits_append_of_ends ends]
  obtain ⟨whole, after⟩ := Decimal.spanDigits unsigned
  cases whole with
  | nil => rfl
  | cons digit others => rfl

/-- An exponent is found on its own line. -/
theorem exponent?_append_of_ends (line : List Char) :
    Decimal.exponent? (line ++ tail) =
      (Decimal.exponent? line).map fun read => (read.1, read.2 ++ tail) := by
  cases line with
  | nil => exact (apart_of_ends ends).exponent?_eq_none
  | cons mark rest =>
    rw [List.cons_append, exponent?_cons, exponent?_cons, exponentSign_append_of_ends ends,
      signedPower?_append_of_ends ends]
    split
    · rfl
    · rfl

/-- A number is read from its own line. -/
theorem readNumber_append_of_ends (line : List Char) :
    readNumber (line ++ tail) = readNumber line := by
  have taken (rest : List Char) :
      (line ++ tail).length - (rest ++ tail).length - 1 = line.length - rest.length - 1 := by
    simp only [List.length_append]
    omega
  have behind := spanDigits_append_of_ends ends line
  cases digits : Decimal.spanDigits line with
  | mk whole after =>
    rw [digits] at behind
    by_cases point : ∃ fraction, after = '.' :: fraction
    · obtain ⟨fraction, rfl⟩ := point
      simp only [readNumber, behind, digits, List.cons_append, spanDigits_append_of_ends ends,
        exponent?_append_of_ends ends]
      cases Decimal.exponent? (Decimal.spanDigits fraction).2 with
      | none => simp only [Option.map_none, taken]
      | some read => simp only [Option.map_some, taken]
    · have noPoint : ∀ fraction, after ≠ '.' :: fraction := not_exists.mp point
      have noPointBehind : ∀ fraction, after ++ tail ≠ '.' :: fraction := by
        intro fraction same
        cases after with
        | nil =>
          rw [List.nil_append] at same
          exact absurd (ends '.' (same ▸ rfl)) (by decide)
        | cons first rest => exact noPoint rest (congrArg (· :: rest) (List.cons.inj same).1)
      rw [readNumber_of_ne behind noPointBehind, readNumber_of_ne digits noPoint,
        exponent?_append_of_ends ends]
      cases Decimal.exponent? after with
      | none => simp only [Option.map_none, taken]
      | some read => simp only [Option.map_some, taken]

/-- What starts in a line is read in the same way if other lines stand below. -/
theorem read_append (first : Char) (line : List Char) :
    read first (line ++ tail) = read first line := by
  have stops : continuesWord '\n' = false := by decide
  simp only [read, ← List.cons_append, readNumber_append_of_ends ends,
    takeWhile_append_of_ends ends stops]

end LineEnd

/-- A number takes no more characters than there are. -/
theorem more_le_of_readNumber {first : Char} {rest : List Char} {token : Token} {more : Nat}
    (reads : readNumber (first :: rest) = .token token more) : more ≤ rest.length := by
  have taken (after : List Char) : (first :: rest).length - after.length - 1 ≤ rest.length := by
    rw [List.length_cons]
    omega
  simp only [readNumber] at reads
  split at reads
  · split at reads
    · cases reads
      exact taken _
    · cases reads
      exact taken _
  · split at reads
    · cases reads
      exact taken _
    · split at reads
      · cases reads
        exact taken _
      · contradiction

/-- A token takes no more characters than there are. -/
theorem more_le_of_read {first : Char} {rest : List Char} {token : Token} {more : Nat}
    (reads : read first rest = .token token more) : more ≤ rest.length := by
  unfold read at reads
  split at reads
  · contradiction
  split at reads
  · contradiction
  split at reads
  · exact more_le_of_readNumber reads
  split at reads
  · cases reads
    exact (List.takeWhile_prefix _).length_le
  split at reads
  · cases reads
    exact Nat.zero_le _
  · contradiction

/-! ### The same tokens on the same lines -/

/-- Characters that have been taken are skipped, and their bytes are counted. -/
theorem spansFrom_length (start : Nat) (passed rest : List Char) :
    spansFrom start passed.length (passed ++ rest) =
      spansFrom (start + byteCount passed) 0 rest := by
  induction passed generalizing start with
  | nil => rfl
  | cons first others inductionHypothesis =>
    rw [List.length_cons, List.cons_append, spansFrom, inductionHypothesis, byteCount_cons,
      Nat.add_assoc]

/-- A line of a text: where the whole is scanned, the line is scanned as it is by itself, and
    the scan goes on behind it. -/
theorem located_spansFrom_line {source : String} {before line tail : List Char}
    (whole : source.toList = before ++ (line ++ tail)) (oneLine : '\n' ∉ line)
    (ends : ∀ first ∈ tail.head?, first = '\n') {skipped : Nat} (short : skipped ≤ line.length) :
    located (lineStarts source) (spansFrom (byteCount before) skipped (line ++ tail)) =
      match scan (before.count '\n' + 1) skipped line with
      | .error fault => .error fault
      | .ok lexemes =>
        (located (lineStarts source) (spansFrom (byteCount (before ++ line)) 0 tail)).map
          (lexemes ++ ·) := by
  induction line generalizing before skipped with
  | nil =>
    obtain rfl : skipped = 0 := Nat.le_zero.mp short
    rw [List.append_nil, List.nil_append]
    cases located (lineStarts source) (spansFrom (byteCount before) 0 tail) with
    | error fault => rfl
    | ok lexemes => rfl
  | cons first rest inductionHypothesis =>
    have goesOn : first ≠ '\n' := fun same => oneLine (same ▸ List.mem_cons_self)
    have later : '\n' ∉ rest := fun member => oneLine (List.mem_cons_of_mem first member)
    have split : source.toList = (before ++ [first]) ++ (rest ++ tail) := by
      rw [whole, List.append_assoc, List.singleton_append, List.cons_append]
    have count : (before ++ [first]).count '\n' = before.count '\n' := by
      rw [List.count_append, List.count_singleton]
      simp [goesOn]
    have next {skipped : Nat} (short : skipped ≤ rest.length) :=
      inductionHypothesis split later short
    rw [count, byteCount_append, byteCount_cons, byteCount_nil, Nat.add_zero,
      List.append_assoc, List.singleton_append] at next
    cases skipped with
    | succ skipped => exact next (Nat.le_of_succ_le_succ short)
    | zero =>
      have reads : readText first (rest ++ tail) = read first rest := by
        rw [readText, if_neg goesOn, read_append ends]
      have here : lineAt (lineStarts source) (byteCount before) = before.count '\n' + 1 :=
        lineAt_lineStarts whole
      simp only [List.cons_append, spansFrom, scan, reads]
      cases reading : read first rest with
      | blank => exact next (Nat.zero_le _)
      | comment =>
        -- The comment takes the rest of the line and nothing of the next one.
        have comment : (rest ++ tail).takeWhile (· ≠ '\n') = rest := by
          rw [takeWhile_append_of_ends ends (by decide), List.takeWhile_eq_self_iff]
          intro character member
          exact decide_eq_true fun same => later (same ▸ member)
        simp only
        rw [comment, spansFrom_length, byteCount_append, byteCount_cons, Nat.add_assoc]
        cases located (lineStarts source) (spansFrom
            (byteCount before + (first.utf8Size + byteCount rest)) 0 tail) with
        | error fault => rfl
        | ok lexemes => rfl
      | unreadable text => simp only [located, here]
      | token token more =>
        simp only
        rw [located_cons, Span.lexeme, here, next (more_le_of_read reading)]
        cases scan (before.count '\n' + 1) more rest with
        | error fault => rfl
        | ok lexemes =>
          cases located (lineStarts source)
              (spansFrom (byteCount (before ++ first :: rest)) 0 tail) with
          | error fault => rfl
          | ok others => rfl

/-- The end of a line, where the whole is scanned. -/
theorem located_spansFrom_newline {source : String} {before rest : List Char}
    (whole : source.toList = before ++ '\n' :: rest) :
    located (lineStarts source) (spansFrom (byteCount before) 0 ('\n' :: rest)) =
      (located (lineStarts source) (spansFrom (byteCount (before ++ ['\n'])) 0 rest)).map
        (⟨newline, before.count '\n' + 1⟩ :: ·) := by
  have reads : readText '\n' rest = .token newline 0 := if_pos rfl
  simp only [spansFrom, reads, located_cons, Span.lexeme, lineAt_lineStarts whole,
    byteCount_append, byteCount_cons, byteCount_nil, Nat.add_zero]

/-- Lines of a text: where the whole is scanned behind some lines, the remaining lines are
    scanned one by one. -/
theorem located_spansFrom_lines {source : String} {before current characters : List Char}
    (whole : source.toList = before ++ (current.reverse ++ characters))
    (oneLine : '\n' ∉ current.reverse) :
    located (lineStarts source) (spansFrom (byteCount before) 0 (current.reverse ++ characters)) =
      scanLines (before.count '\n' + 1) (splitLines current characters) := by
  induction characters generalizing before current with
  | nil =>
    rw [located_spansFrom_line whole oneLine (by simp) (Nat.zero_le _), splitLines, scanLines]
    cases scan (before.count '\n' + 1) 0 current.reverse with
    | error fault => rfl
    | ok lexemes => exact congrArg Except.ok (List.append_nil lexemes)
  | cons first rest inductionHypothesis =>
    -- A line end closes the current line, and the next one starts behind it with no characters.
    by_cases ends : first = '\n'
    · subst ends
      have atEnd : source.toList = (before ++ current.reverse) ++ '\n' :: rest := by
        rw [whole, List.append_assoc]
      have below : source.toList =
          (before ++ current.reverse ++ ['\n']) ++ (List.reverse [] ++ rest) := by
        rw [atEnd, List.reverse_nil, List.nil_append, List.append_assoc _ ['\n'],
          List.singleton_append]
      have count : (before ++ current.reverse).count '\n' = before.count '\n' := by
        rw [List.count_append, List.count_eq_zero_of_not_mem oneLine, Nat.add_zero]
      have lines := inductionHypothesis below List.not_mem_nil
      rw [List.reverse_nil, List.nil_append, List.count_append, count,
        List.count_singleton_self] at lines
      rw [located_spansFrom_line whole oneLine (by simp) (Nat.zero_le _),
        located_spansFrom_newline atEnd, count, lines, splitLines]
      obtain ⟨next, others, some⟩ := List.exists_cons_of_ne_nil (splitLines_ne_nil [] rest)
      rw [some]
      simp only [scanLines]
      cases scan (before.count '\n' + 1) 0 current.reverse with
      | error fault => rfl
      | ok lexemes =>
        cases scanLines (before.count '\n' + 1 + 1) (next :: others) with
        | error fault => rfl
        | ok later => rfl
    · have joined : current.reverse ++ first :: rest = (first :: current).reverse ++ rest := by
        rw [List.reverse_cons, List.append_assoc, List.singleton_append]
      have goesOn : '\n' ∉ (first :: current).reverse := by
        rw [List.reverse_cons, List.mem_append, List.mem_singleton, not_or]
        exact ⟨oneLine, Ne.symm ends⟩
      rw [joined] at whole ⊢
      rw [splitLines_cons ends]
      exact inductionHypothesis whole goesOn

/-- Scanning a text as a whole and looking up the lines of bytes gives the tokens of its lines,
    and a text is refused for the same place on the same line. -/
theorem scanText_eq_located (source : String) :
    scanText source = located (lineStarts source) (spans source) := by
  have whole : source.toList = [] ++ (List.reverse [] ++ source.toList) := rfl
  exact (located_spansFrom_lines whole List.not_mem_nil).symm

/-! ### Where tokens start -/

/-- Whether something is read right behind these characters of a text. -/
def ReadsBehind (characters before : List Char) (reading : Reading) : Prop :=
  ∃ first rest, characters = before ++ first :: rest ∧ readText first rest = reading

/-- Whether tokens, or what cannot be read, start at the bytes that are told, in characters
    that start at a byte themselves. -/
def StartIn (characters : List Char) (start : Nat) : Except Misread (List Span) → Prop
  | .error misread =>
    ∃ before, ReadsBehind characters before (.unreadable misread.text) ∧
      misread.start = start + byteCount before
  | .ok spans =>
    ∀ span ∈ spans, ∃ before more, ReadsBehind characters before (.token span.token more) ∧
      span.start = start + byteCount before

/-- What is read behind some characters is read behind one more in front of them. -/
theorem ReadsBehind.cons {characters before : List Char} {reading : Reading}
    (reads : ReadsBehind characters before reading) (first : Char) :
    ReadsBehind (first :: characters) (first :: before) reading := by
  obtain ⟨next, rest, rfl, reading⟩ := reads
  exact ⟨next, rest, rfl, reading⟩

/-- What starts in characters starts in them with one more in front. -/
theorem StartIn.cons {characters : List Char} {first : Char} {start : Nat}
    {scanned : Except Misread (List Span)}
    (starts : StartIn characters (start + first.utf8Size) scanned) :
    StartIn (first :: characters) start scanned := by
  cases scanned with
  | error misread =>
    obtain ⟨before, reads, offset⟩ := starts
    refine ⟨first :: before, reads.cons first, ?_⟩
    rw [offset, byteCount_cons, Nat.add_assoc]
  | ok spans =>
    intro span member
    obtain ⟨before, more, reads, offset⟩ := starts span member
    refine ⟨first :: before, more, reads.cons first, ?_⟩
    rw [offset, byteCount_cons, Nat.add_assoc]

/-- Every token starts at the byte that is told, and so does what cannot be read. -/
theorem startIn_spansFrom (start skipped : Nat) (characters : List Char) :
    StartIn characters start (spansFrom start skipped characters) := by
  induction characters generalizing start skipped with
  | nil =>
    rw [spansFrom]
    exact List.forall_mem_nil _
  | cons first rest inductionHypothesis =>
    cases skipped with
    | succ skipped => exact (inductionHypothesis _ skipped).cons
    | zero =>
      rw [spansFrom]
      cases reads : readText first rest with
      | blank => exact (inductionHypothesis _ 0).cons
      | comment => exact (inductionHypothesis _ _).cons
      | unreadable text => exact ⟨[], ⟨first, rest, rfl, reads⟩, rfl⟩
      | token token more =>
        have later := (inductionHypothesis (start + first.utf8Size) more).cons
        simp only
        cases scanned : spansFrom (start + first.utf8Size) more rest with
        | error misread =>
          rw [scanned] at later
          exact later
        | ok spans =>
          rw [scanned] at later
          rintro span (_ | ⟨_, member⟩)
          · exact ⟨[], more, ⟨first, rest, rfl, reads⟩, rfl⟩
          · exact later span member

end Token

end StabilizerLayers
