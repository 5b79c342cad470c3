import StabilizerLayers.Yaml.Property
import StabilizerLayers.Yaml.Scalar

/-!
# Tokens of flat YAML

A text as marks, properties and scalars, for documents that hold one mapping of
scalars. The mapping is written with indentation or within braces. What opens a
sequence, or a collection inside the mapping, is refused.

Where a key may stand without a mark of its own, the colon after it comes too
late to tell; so the place is remembered as a candidate, and the tokens since
then are held back until a colon makes it a key or the candidate is given up. A
candidate is given up at the end of its line or 1024 characters on. One that
stands where the next entry of the mapping must start has to become a key.
-/

namespace StabilizerLayers

namespace Yaml

/-- The parts of a document. -/
inductive Token where
  | directive (directive : Directive)
  | documentStart
  | documentEnd
  /-- A mapping by indentation starts. -/
  | blockStart
  | blockEnd
  /-- A mapping within braces starts. -/
  | flowStart
  | flowEnd
  /-- The comma between entries. -/
  | separator
  | key
  | value
  /-- A name for a node of its own elsewhere. -/
  | aliasOf (name : String)
  | anchor (name : String)
  | tag (tag : Tag)
  | scalar (style : Style) (text : String)
deriving DecidableEq, Repr

/-- A place where a key may start. -/
structure Candidate where
  line : Nat
  column : Nat
  /-- Whether it has to become a key. -/
  required : Bool
deriving DecidableEq, Repr

/-- A text that is read up to a cursor. -/
structure Scan where
  cursor : Cursor
  /-- Tokens before the candidate, latest first. -/
  settled : List Token := []
  /-- Tokens since the candidate, latest first. -/
  held : List Token := []
  /-- The column of the entries of the mapping, while one by indentation is open. -/
  indent : Option Nat := none
  /-- Whether braces are open. -/
  flow : Bool := false
  /-- Whether a key may start here. -/
  keyAllowed : Bool := true
  candidate : Option Candidate := none

namespace Scan

/-- Adds a token. -/
def emit (scan : Scan) (token : Token) : Scan := { scan with held := token :: scan.held }

/-- Adds a token of one character, which is passed over. -/
def take (scan : Scan) (token : Token) : Scan :=
  { scan.emit token with cursor := scan.cursor.next }

/-- Settles the tokens that are held back. -/
def settle (scan : Scan) : Scan := { scan with settled := scan.held ++ scan.settled, held := [] }

/-- All tokens in order. -/
def tokens (scan : Scan) : List Token := (scan.held ++ scan.settled).reverse

/-! ### Candidates -/

/-- Gives the candidate up, unless it has to become a key. -/
def dropCandidate (scan : Scan) : Option Scan :=
  if scan.candidate.any (·.required) then none else some { scan with candidate := none }

/-- Gives the candidate up if it is too far back. -/
def expireCandidate (scan : Scan) : Option Scan :=
  let isTooFar := scan.candidate.any fun candidate =>
    candidate.line != scan.cursor.line || decide (candidate.column + 1024 < scan.cursor.column)
  if isTooFar then scan.dropCandidate else some scan

/-- Remembers this place as a candidate if a key may start here. -/
def saveCandidate (scan : Scan) : Option Scan :=
  if scan.keyAllowed then
    match scan.dropCandidate with
    | none => none
    | some scan =>
      let candidate : Candidate :=
        { line := scan.cursor.line, column := scan.cursor.column,
          required := !scan.flow && scan.indent == some scan.cursor.column }
      some { scan.settle with candidate := some candidate }
  else some scan

/-! ### Mappings by indentation -/

/-- Ends the mapping if the line is indented less than its entries. -/
def closeBlock (scan : Scan) (isOutside : Nat → Bool) : Scan :=
  if !scan.flow && scan.indent.any isOutside then { scan.emit .blockEnd with indent := none }
  else scan

/-- Starts a mapping with entries at a column before the tokens that are held back,
    unless there is one. -/
def openBlock (scan : Scan) (column : Nat) : Option Scan :=
  if scan.flow then some scan
  else
    match scan.indent with
    | none => some { scan with settled := .blockStart :: scan.settled, indent := some column }
    | some indent => if indent < column then none else some scan

/-! ### Tokens -/

/-- Passes over blanks, comments and line ends. A tab is no blank where a key may
    start, outside braces. A byte order mark may start a line. -/
def skipGap (flow : Bool) (inComment keyAllowed : Bool) (cursor : Cursor) :
    List Char → Cursor × Bool
  | [] => (cursor, keyAllowed)
  | character :: rest =>
    if isBreak character then skipGap flow false (keyAllowed || !flow) cursor.next rest
    else if inComment then skipGap flow true keyAllowed cursor.next rest
    else if character == byteOrderMark && cursor.column == 0 then
      skipGap flow false keyAllowed cursor.next rest
    else if character == ' ' || (character == '\t' && (flow || !keyAllowed)) then
      skipGap flow false keyAllowed cursor.next rest
    else if character == '#' then skipGap flow true keyAllowed cursor.next rest
    else (cursor, keyAllowed)

/-- Moves to the next token. -/
def toToken (scan : Scan) : Option Scan :=
  let (cursor, keyAllowed) :=
    skipGap scan.flow false scan.keyAllowed scan.cursor scan.cursor.rest
  let moved : Scan := { scan with cursor, keyAllowed }
  moved.expireCandidate.map (·.closeBlock fun indent => decide (cursor.column < indent))

/-- Starts or ends a part of the stream: no mapping and no candidate is left. -/
def boundary (scan : Scan) : Option Scan :=
  ((scan.closeBlock fun _ => true).dropCandidate).map fun scan => { scan with keyAllowed := false }

/-- Reads a directive. -/
def directive (scan : Scan) : Option Scan :=
  match scan.boundary, readDirective scan.cursor.next with
  | some scan, some (directive, cursor) => some { scan.emit (.directive directive) with cursor }
  | _, _ => none

/-- Reads the mark before or after a document. -/
def documentMark (scan : Scan) (mark : Token) : Option Scan :=
  scan.boundary.map fun scan => { scan.emit mark with cursor := scan.cursor.advance 3 }

/-- Opens braces, unless a mapping is open. -/
def openBraces (scan : Scan) : Option Scan :=
  if scan.flow || scan.indent.isSome then none
  else some { scan.take .flowStart with flow := true, keyAllowed := true, candidate := none }

/-- Closes the braces. -/
def closeBraces (scan : Scan) : Option Scan :=
  if scan.flow then
    some { scan.take .flowEnd with flow := false, keyAllowed := false, candidate := none }
  else none

/-- Reads a comma between entries. -/
def comma (scan : Scan) : Option Scan :=
  if scan.flow then some { scan.take .separator with keyAllowed := true, candidate := none }
  else none

/-- Reads the mark of an entry that needs no candidate, and opens its mapping. -/
def entryMark (scan : Scan) (mark : Token) : Option Scan :=
  if scan.flow || scan.keyAllowed then
    match scan.settle.openBlock scan.cursor.column with
    | none => none
    | some scan => some { scan.take mark with keyAllowed := !scan.flow }
  else none

/-- Reads the mark before a key. -/
def keyMark (scan : Scan) : Option Scan :=
  match scan.entryMark .key with
  | none => none
  | some scan => scan.dropCandidate

/-- Reads a colon. It makes a key of the candidate, if there is one. -/
def colon (scan : Scan) : Option Scan :=
  match scan.candidate with
  | none => scan.entryMark .value
  | some candidate =>
    match scan.openBlock candidate.column with
    | none => none
    | some scan =>
      let keyed : Scan := { scan with settled := .key :: scan.settled, candidate := none }
      some { keyed.settle.take .value with keyAllowed := false }

/-- Reads a token that a key can start with. -/
def startOfKey (scan : Scan) (read : Scan → Option Scan) : Option Scan :=
  match scan.saveCandidate with
  | none => none
  | some scan => read { scan with keyAllowed := false }

/-- Reads an alias or an anchor. -/
def named (scan : Scan) (token : String → Token) : Option Scan :=
  (readAnchor scan.cursor.next).map fun (name, cursor) => { scan.emit (token name) with cursor }

/-- Reads a tag. -/
def tag (scan : Scan) : Option Scan :=
  (readTag scan.flow scan.cursor.next).map fun (tag, cursor) => { scan.emit (.tag tag) with cursor }

/-- Reads text in quotes. -/
def quoted (scan : Scan) (double : Bool) : Option Scan :=
  let start := scan.cursor.next
  (readQuoted double [] {} 0 start start.rest).map fun (text, cursor) =>
    { scan.emit (.scalar .quoted text) with cursor }

/-- The least indentation of what belongs to an entry. -/
def inner (scan : Scan) : Nat := scan.indent.elim 0 (· + 1)

/-- Reads plain text. A key may start on the line after it. -/
def plain (scan : Scan) : Option Scan :=
  (readPlain scan.flow scan.inner [] {} scan.cursor scan.cursor.rest).map
    fun (text, startsLine, cursor) =>
      { scan.emit (.scalar .plain text) with cursor, keyAllowed := startsLine }

/-- Reads block text. A key may start on the line after it. -/
def block (scan : Scan) (style : Style) : Option Scan :=
  match scan.dropCandidate, readBlock style scan.inner scan.cursor.next with
  | some scan, some (text, cursor) =>
    some { scan.emit (.scalar style text) with cursor, keyAllowed := true }
  | _, _ => none

/-- Whether plain text can start with a character before the rest. -/
def startsPlain (flow : Bool) (character : Char) (rest : List Char) : Bool :=
  !(isSpace character || isOneOf "-?:,[]\x7b\x7d#&*!|>\x27\"%@`" character) ||
    (!Cursor.endsWord rest && (character == '-' || (!flow && isOneOf "?:" character)))

/-- Reads the token that starts with a character before the rest. -/
def token (scan : Scan) (character : Char) (rest : List Char) : Option Scan :=
  let marks := scan.flow || Cursor.endsWord rest
  if scan.cursor.column == 0 && character == '%' then scan.directive
  else if scan.cursor.atMark '-' then scan.documentMark .documentStart
  else if scan.cursor.atMark '.' then scan.documentMark .documentEnd
  else if character == '\x7b' then scan.openBraces
  else if character == '\x7d' then scan.closeBraces
  else if character == ',' then scan.comma
  else if character == '?' && marks then scan.keyMark
  else if character == ':' && marks then scan.colon
  else if character == '*' then scan.startOfKey (·.named .aliasOf)
  else if character == '&' then scan.startOfKey (·.named .anchor)
  else if character == '!' then scan.startOfKey (·.tag)
  else if character == '|' && !scan.flow then scan.block .literal
  else if character == '>' && !scan.flow then scan.block .folded
  else if character == '\x27' then scan.startOfKey (·.quoted false)
  else if character == '"' then scan.startOfKey (·.quoted true)
  else if startsPlain scan.flow character rest then scan.startOfKey (·.plain)
  else none

/-- Reads all tokens. Each takes at least one character, which bounds their
    number. -/
def run : Nat → Scan → Option (List Token)
  | 0, _ => none
  | bound + 1, scan =>
    match scan.toToken with
    | none => none
    | some scan =>
      match scan.cursor.rest with
      | [] => scan.boundary.map tokens
      | character :: rest =>
        match scan.token character rest with
        | none => none
        | some scan => run bound scan

end Scan

/-- The tokens of a text. -/
def tokens? (text : String) : Option (List Token) :=
  match unified? text.toList with
  | none => none
  | some characters => Scan.run (characters.length + 1) { cursor := { rest := characters } }

end Yaml

end StabilizerLayers
