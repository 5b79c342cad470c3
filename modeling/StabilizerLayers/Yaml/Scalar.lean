import StabilizerLayers.Json.Reader
import StabilizerLayers.Yaml.Cursor

/-!
# Scalars of YAML

A scalar is a text in one of several styles. Within quotes and in plain text a
gap of blanks that holds line ends is folded: one line end becomes a space, and
of several the first is left out. Block text keeps its lines, or folds those
that start without a blank.

The readers of quoted and plain text go through it one character at a time, with
the gap since the latest word as their state.
-/

namespace StabilizerLayers

namespace Yaml

/-- How a scalar is written. -/
inductive Style where
  | plain
  | quoted
  /-- Block text that keeps its lines. -/
  | literal
  /-- Block text whose lines are folded. -/
  | folded
deriving DecidableEq, Repr

/-! ### Gaps -/

/-- What stands between two words of a scalar, latest first. -/
structure Gap where
  /-- Blanks before the first line end. -/
  blanks : List Char := []
  /-- Line ends. -/
  breaks : List Char := []
  /-- Whether it starts with a line end that an escape takes away. -/
  joined : Bool := false
deriving DecidableEq, Repr

namespace Gap

/-- Whether it starts a line. -/
def startsLine (gap : Gap) : Bool := gap.joined || !gap.breaks.isEmpty

/-- Whether there is no gap. -/
def isEmpty (gap : Gap) : Bool := gap.blanks.isEmpty && !gap.startsLine

/-- Adds a blank, which counts only before the first line end. -/
def addBlank (gap : Gap) (blank : Char) : Gap :=
  if gap.startsLine then gap else { gap with blanks := blank :: gap.blanks }

/-- Adds a line end. -/
def addBreak (gap : Gap) (lineEnd : Char) : Gap :=
  { gap with blanks := [], breaks := lineEnd :: gap.breaks }

/-- What a gap stands for, latest first. -/
def folded (gap : Gap) : List Char :=
  if gap.joined then gap.breaks
  else
    match gap.breaks.reverse with
    | [] => gap.blanks
    | first :: more =>
      if first == '\n' then if more.isEmpty then [' '] else more.reverse else gap.breaks

end Gap

/-! ### Quoted text -/

/-- An escape, and how many characters it takes after the backslash. -/
inductive Escape where
  | lineEnd
  | character (value : Char) (width : Nat)

/-- The character that a number of hexadecimal digits stand for. -/
def escapedCode? (width : Nat) (digits : List Char) : Option Escape :=
  if digits.length < width then none
  else
    match (digits.take width).mapM Json.hexValue? with
    | none => none
    | some values =>
      let code := values.foldl (fun code value => code * 16 + value) 0
      if code.isValidChar then some (.character (Char.ofNat code) (width + 1)) else none

/-- The escape after a backslash. -/
def escape? : List Char → Option Escape
  | [] => none
  | letter :: rest =>
    if isBreak letter then some .lineEnd
    else
      match letter with
      | '0' => some (.character (Char.ofNat 0) 1)
      | 'a' => some (.character '\x07' 1)
      | 'b' => some (.character '\x08' 1)
      | 't' | '\t' => some (.character '\t' 1)
      | 'n' => some (.character '\n' 1)
      | 'v' => some (.character '\x0b' 1)
      | 'f' => some (.character '\x0c' 1)
      | 'r' => some (.character '\r' 1)
      | 'e' => some (.character '\x1b' 1)
      | ' ' => some (.character ' ' 1)
      | '"' => some (.character '"' 1)
      | '/' => some (.character '/' 1)
      | '\\' => some (.character '\\' 1)
      | 'N' => some (.character (Char.ofNat 0x85) 1)
      | '_' => some (.character (Char.ofNat 0xA0) 1)
      | 'L' => some (.character (Char.ofNat 0x2028) 1)
      | 'P' => some (.character (Char.ofNat 0x2029) 1)
      | 'x' => escapedCode? 2 rest
      | 'u' => escapedCode? 4 rest
      | 'U' => escapedCode? 8 rest
      | _ => none

/-- Reads text in double quotes, or else in single ones, after the opening quote.
    `done` holds the text so far, latest first, and `gap` what followed it;
    `skipped` characters belong to an escape. -/
def readQuoted (double : Bool) (done : List Char) (gap : Gap) (skipped : Nat)
    (cursor : Cursor) : List Char → Option (String × Cursor)
  | [] => none
  | character :: rest =>
    match skipped with
    | skipped + 1 => readQuoted double done gap skipped cursor.next rest
    | 0 =>
      if isBlank character then readQuoted double done (gap.addBlank character) 0 cursor.next rest
      else if isBreak character then
        readQuoted double done (gap.addBreak character) 0 cursor.next rest
      else if cursor.atDocumentMark then none
      else
        let done := gap.folded ++ done
        if double && character == '\\' then
          match escape? rest with
          | none => none
          | some .lineEnd => readQuoted double done { joined := true } 1 cursor.next rest
          | some (.character value width) =>
            readQuoted double (value :: done) {} width cursor.next rest
        else if !double && character == '\x27' && rest.head? == some '\x27' then
          readQuoted double ('\x27' :: done) {} 1 cursor.next rest
        else if character == (if double then '"' else '\x27') then
          some (String.ofList done.reverse, cursor.next)
        else readQuoted double (character :: done) {} 0 cursor.next rest

/-! ### Plain text -/

/-- Whether a character ends plain text within braces. -/
def isFlowMark (character : Char) : Bool := isOneOf ",[]\x7b\x7d" character

/-- Whether plain text that a gap interrupts does not go on. -/
def endsAfterGap (flow : Bool) (indent : Nat) (cursor : Cursor) (character : Char) : Bool :=
  (!flow && decide (cursor.column < indent)) || cursor.atDocumentMark || character == '#'

/-- Reads plain text. It ends before a colon at the end of a word, before a comment
    and before a line that is indented by less than `indent`; within braces (`flow`)
    indentation does not matter, but the marks of collections end it. The result says
    whether the text is followed by the start of a line. -/
def readPlain (flow : Bool) (indent : Nat) (done : List Char) (gap : Gap) (cursor : Cursor) :
    List Char → Option (String × Bool × Cursor)
  | [] => some (String.ofList done.reverse, gap.startsLine, cursor)
  | character :: rest =>
    if isBlank character then
      if character == '\t' && gap.startsLine && decide (cursor.column < indent) then none
      else readPlain flow indent done (gap.addBlank character) cursor.next rest
    else if isBreak character then
      readPlain flow indent done (gap.addBreak character) cursor.next rest
    else if !gap.isEmpty && endsAfterGap flow indent cursor character then
      some (String.ofList done.reverse, gap.startsLine, cursor)
    else if flow && character == ':' && rest.head?.any (isOneOf ",?[]\x7b\x7d") then none
    else if (character == ':' && Cursor.endsWord rest) || (flow && isFlowMark character) then
      some (String.ofList done.reverse, gap.startsLine, cursor)
    else readPlain flow indent (character :: (gap.folded ++ done)) {} cursor.next rest

/-! ### Block text -/

/-- What becomes of the line ends after block text. -/
inductive Chomping where
  /-- The last line keeps its end. -/
  | clip
  | strip
  | keep
deriving DecidableEq, Repr

/-- The chomping that a sign asks for. -/
def Chomping.ofSign? : Char → Option Chomping
  | '+' => some keep
  | '-' => some strip
  | _ => none

/-- An indentation of one to nine blanks. -/
def indentation? (digit : Char) : Option Nat :=
  if digit.isDigit && digit != '0' then some (digit.toNat - 48) else none

/-- What the line of the mark says about block text. -/
structure BlockHeader where
  chomping : Chomping := .clip
  indentation : Option Nat := none

/-- Reads what follows the mark: a sign and a digit in either order, both
    optional. The number counts the characters. -/
def blockHeader : List Char → BlockHeader × Nat
  | [] => (⟨.clip, none⟩, 0)
  | [only] =>
    match Chomping.ofSign? only, indentation? only with
    | some chomping, _ => (⟨chomping, none⟩, 1)
    | none, some indentation => (⟨.clip, some indentation⟩, 1)
    | none, none => (⟨.clip, none⟩, 0)
  | first :: second :: _ =>
    match Chomping.ofSign? first, indentation? first with
    | some chomping, _ =>
      match indentation? second with
      | some indentation => (⟨chomping, some indentation⟩, 2)
      | none => (⟨chomping, none⟩, 1)
    | none, some indentation =>
      match Chomping.ofSign? second with
      | some chomping => (⟨chomping, some indentation⟩, 2)
      | none => (⟨.clip, some indentation⟩, 1)
    | none, none => (⟨.clip, none⟩, 0)

/-- Passes over empty lines and the indentation of the next line, at most `limit`
    blanks. Returns the line ends, latest first, and the greatest indentation. A
    tab in the indentation is refused. -/
def skipEmptyLines (limit : Option Nat) (breaks : List Char) (widest : Nat) (cursor : Cursor) :
    List Char → Option (List Char × Nat × Cursor)
  | [] => some (breaks, Nat.max widest cursor.column, cursor)
  | character :: rest =>
    let indenting := limit.all fun limit => decide (cursor.column < limit)
    if indenting && character == ' ' then skipEmptyLines limit breaks widest cursor.next rest
    else if indenting && character == '\t' then none
    else
      let widest := Nat.max widest cursor.column
      if isBreak character then skipEmptyLines limit (character :: breaks) widest cursor.next rest
      else some (breaks, widest, cursor)

/-- Block text that is being read, latest character first. -/
structure BlockText where
  done : List Char := []
  /-- The end of the latest line, unless the text ends there. -/
  lineEnd : List Char := []
  /-- The ends of the empty lines after it. -/
  emptyLines : List Char := []
  /-- Whether the latest line starts with a blank. -/
  startsBlank : Bool := false

/-- Adds a line. A folded line end is a space, or nothing before empty lines. -/
def BlockText.addLine (text : BlockText) (style : Style) (line : List Char) : BlockText :=
  let startsBlank := line.head?.any isBlank
  let foldsEnd := style == .folded && text.lineEnd == ['\n'] && !text.startsBlank && !startsBlank
  let joint := if !foldsEnd then text.lineEnd else if text.emptyLines.isEmpty then [' '] else []
  { done := line.reverse ++ text.emptyLines ++ joint ++ text.done, startsBlank }

/-- What block text amounts to. -/
def BlockText.chomped (text : BlockText) : Chomping → List Char
  | .strip => text.done
  | .clip => text.lineEnd ++ text.done
  | .keep => text.emptyLines ++ text.lineEnd ++ text.done

/-- Reads the lines of block text. Each takes at least one character, which bounds
    their number. -/
def readBlockLines (style : Style) (indent : Nat) :
    Nat → BlockText → Cursor → Option (BlockText × Cursor)
  | 0, text, cursor => some (text, cursor)
  | bound + 1, text, cursor =>
    if cursor.column != indent || cursor.rest.isEmpty then some (text, cursor)
    else
      let (line, atEnd) := cursor.span (!isBreak ·)
      let afterLine := atEnd.next
      match skipEmptyLines (some indent) [] 0 afterLine afterLine.rest with
      | none => none
      | some (emptyLines, _, cursor) =>
        readBlockLines style indent bound
          { text.addLine style line with lineEnd := atEnd.peek?.toList, emptyLines } cursor

/-- Reads block text after its mark, inside a collection whose entries are indented
    by less than `least`. -/
def readBlock (style : Style) (least : Nat) (cursor : Cursor) : Option (String × Cursor) :=
  let (header, width) := blockHeader cursor.rest
  match (cursor.advance width).finishLine? with
  | none => none
  | some start =>
    let limit := header.indentation.map (Nat.max least 1 - 1 + ·)
    match skipEmptyLines limit [] 0 start start.rest with
    | none => none
    | some (emptyLines, widest, first) =>
      let indent := limit.getD (Nat.max widest (Nat.max least 1))
      match readBlockLines style indent first.rest.length { emptyLines } first with
      | none => none
      | some (text, after) => some (String.ofList (text.chomped header.chomping).reverse, after)

end Yaml

end StabilizerLayers
