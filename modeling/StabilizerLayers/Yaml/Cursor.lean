import StabilizerLayers.Yaml.Character

/-!
# Places in a text

A cursor is a place in a text whose line ends are unified: what follows it, and
its line and column.
-/

namespace StabilizerLayers

namespace Yaml

/-- A place in a text. -/
structure Cursor where
  rest : List Char
  line : Nat := 0
  column : Nat := 0
deriving DecidableEq, Repr

namespace Cursor

/-- The next character. -/
def peek? (cursor : Cursor) : Option Char := cursor.rest.head?

/-- Passes over one character. -/
def next (cursor : Cursor) : Cursor :=
  match cursor.rest with
  | [] => cursor
  | character :: rest =>
    if isBreak character then ⟨rest, cursor.line + 1, 0⟩
    else ⟨rest, cursor.line, cursor.column + 1⟩

/-- Passes over a number of characters. -/
def advance (cursor : Cursor) : Nat → Cursor
  | 0 => cursor
  | count + 1 => cursor.next.advance count

/-- Passes over characters of a class and returns them. -/
def span (cursor : Cursor) (inClass : Char → Bool) : List Char × Cursor :=
  let taken := cursor.rest.takeWhile inClass
  (taken, cursor.advance taken.length)

/-- Passes over characters of a class. -/
def skip (cursor : Cursor) (inClass : Char → Bool) : Cursor := (cursor.span inClass).2

/-- Whether a word ends before some characters. -/
def endsWord (characters : List Char) : Bool := characters.head?.all isSpace

/-- Whether a word ends here. -/
def atWordEnd (cursor : Cursor) : Bool := endsWord cursor.rest

/-- Whether a mark of three equal characters starts the line here. -/
def atMark (cursor : Cursor) (character : Char) : Bool :=
  cursor.column == 0 && [character, character, character].isPrefixOf cursor.rest &&
    endsWord (cursor.rest.drop 3)

/-- Whether the mark before or after a document stands here. -/
def atDocumentMark (cursor : Cursor) : Bool := cursor.atMark '-' || cursor.atMark '.'

/-- Passes over the rest of a line if it holds nothing but blanks and a comment. -/
def finishLine? (cursor : Cursor) : Option Cursor :=
  let afterBlanks := cursor.skip isBlank
  let afterComment :=
    if afterBlanks.peek? == some '#' then afterBlanks.skip (!isBreak ·) else afterBlanks
  if afterComment.peek?.all isBreak then some afterComment.next else none

end Cursor

end Yaml

end StabilizerLayers
