import StabilizerLayers.Json.Reader
import StabilizerLayers.Yaml.Cursor

/-!
# Properties and directives of YAML

Anchors and tags, which stand before a node, and directives, which stand before a
document. A tag is written in full within angle brackets, or as a handle and the
rest; a directive gives the text that a handle stands for.

Tags hold one character for each byte, so that bytes in escapes need not form
characters.
-/

namespace StabilizerLayers

namespace Yaml

/-! ### Anchors -/

/-- Reads the name of an anchor after its mark. -/
def readAnchor (cursor : Cursor) : Option (String × Cursor) :=
  let (name, after) := cursor.span isWord
  if !name.isEmpty && after.peek?.all (fun next => isSpace next || isOneOf "?:,]\x7d%@`" next) then
    some (String.ofList name, after)
  else none

/-! ### Tags -/

/-- A tag as it is written. -/
structure Tag where
  /-- What a directive explains; empty in a tag that is written in full. -/
  handle : String
  rest : String
deriving DecidableEq, Repr

/-- Whether a tag may hold a character outside escapes. Brackets and commas stand
    only where they cannot be marks of collections. -/
def isTagCharacter (bracketed : Bool) (character : Char) : Bool :=
  isWord character || isOneOf ";/?:@&=+$.!~*\x27()" character ||
    (bracketed && isOneOf ",[]" character)

/-- The byte that two hexadecimal digits stand for. -/
def byte? (high low : Char) : Option Nat :=
  match Json.hexValue? high, Json.hexValue? low with
  | some high, some low => some (high * 16 + low)
  | _, _ => none

/-- How many bytes follow the first byte of a character. -/
def followingBytes? (first : Nat) : Option Nat :=
  if first < 0x80 then some 0
  else if first < 0xC0 then none
  else if first < 0xE0 then some 1
  else if first < 0xF0 then some 2
  else if first < 0xF8 then some 3
  else none

/-- Reads characters of a tag. `done` holds those before, latest first; `owed`
    bytes have to follow to complete a character. -/
def readTagText (bracketed : Bool) (done : List Char) (owed : Nat) (cursor : Cursor) :
    List Char → Option (List Char × Cursor)
  | '%' :: high :: low :: rest =>
    match byte? high low, owed with
    | none, _ => none
    | some byte, 0 =>
      match followingBytes? byte with
      | none => none
      | some following =>
        readTagText bracketed (Char.ofNat byte :: done) following (cursor.advance 3) rest
    | some byte, owed + 1 =>
      if 0x80 ≤ byte ∧ byte < 0xC0 then
        readTagText bracketed (Char.ofNat byte :: done) owed (cursor.advance 3) rest
      else none
  | character :: rest =>
    if owed != 0 || character == '%' then none
    else if isTagCharacter bracketed character then
      readTagText bracketed (character :: done) 0 cursor.next rest
    else some (done.reverse, cursor)
  | [] => if owed == 0 then some (done.reverse, cursor) else none

/-- Reads characters of a tag, at least one. -/
def readTagPart (bracketed : Bool) (cursor : Cursor) : Option (String × Cursor) :=
  match readTagText bracketed [] 0 cursor cursor.rest with
  | none | some ([], _) => none
  | some (text, after) => some (String.ofList text, after)

/-- Reads a tag after its exclamation mark. -/
def readTagBody (cursor : Cursor) : Option (Tag × Cursor) :=
  if cursor.peek? == some '<' then
    match readTagPart true cursor.next with
    | some (text, after) =>
      if after.peek? == some '>' then some (⟨"", text⟩, after.next) else none
    | none => none
  else
    let (word, after) := cursor.span isWord
    if after.peek? == some '!' then
      match readTagPart false after.next with
      | some (rest, after) => some (⟨"!" ++ String.ofList word ++ "!", rest⟩, after)
      | none => none
    else
      match readTagText false word.reverse 0 after after.rest with
      | none => none
      | some ([], after) => some (⟨"", "!"⟩, after)
      | some (rest, after) => some (⟨"!", String.ofList rest⟩, after)

/-- Reads a tag after its exclamation mark. Within braces a comma may follow it. -/
def readTag (flow : Bool) (cursor : Cursor) : Option (Tag × Cursor) :=
  match readTagBody cursor with
  | none => none
  | some (tag, after) =>
    if after.atWordEnd || (flow && after.peek? == some ',') then some (tag, after) else none

/-- Texts that handles stand for. -/
abbrev Handles := List (String × String)

/-- The handles that need no directive. -/
def Handles.standard : Handles := [("!", "!"), ("!!", "tag:yaml.org,2002:")]

/-- The full text of a tag, if its handle is known. -/
def Tag.text? (tag : Tag) (handles : Handles) : Option String :=
  if tag.handle.isEmpty then some tag.rest else (handles.lookup tag.handle).map (· ++ tag.rest)

/-! ### Directives -/

/-- What a directive says about the document after it. -/
inductive Directive where
  /-- The version of the language. -/
  | version (major minor : Nat)
  /-- The text that a handle stands for. -/
  | handle (name text : String)
deriving DecidableEq, Repr

/-- Reads a number of at most nine digits. -/
def readVersionNumber (cursor : Cursor) : Option (Nat × Cursor) :=
  let (digits, after) := cursor.span Char.isDigit
  if digits.isEmpty || 9 < digits.length then none
  else some (digits.foldl (fun value digit => value * 10 + (digit.toNat - 48)) 0, after)

/-- Reads a version: two numbers and a point between them. -/
def readVersion (cursor : Cursor) : Option (Directive × Cursor) :=
  match readVersionNumber cursor with
  | none => none
  | some (major, afterMajor) =>
    if afterMajor.peek? == some '.' then
      match readVersionNumber afterMajor.next with
      | some (minor, after) => some (.version major minor, after)
      | none => none
    else none

/-- Reads a handle: exclamation marks around a name, or a single one. -/
def readHandle (cursor : Cursor) : Option (String × Cursor) :=
  if cursor.peek? == some '!' then
    let (word, after) := cursor.next.span isWord
    if after.peek? == some '!' then some ("!" ++ String.ofList word ++ "!", after.next)
    else if word.isEmpty then some ("!", after)
    else none
  else none

/-- Reads a handle and what it stands for. -/
def readHandleText (cursor : Cursor) : Option (Directive × Cursor) :=
  match readHandle cursor with
  | none => none
  | some (name, afterName) =>
    if afterName.peek?.any isBlank then
      match readTagPart true (afterName.skip isBlank) with
      | some (text, after) => if after.atWordEnd then some (.handle name text, after) else none
      | none => none
    else none

/-- Reads a directive after its percent sign, with the rest of its line. -/
def readDirective (cursor : Cursor) : Option (Directive × Cursor) :=
  let (name, afterName) := cursor.span isWord
  let found :=
    if !afterName.atWordEnd then none
    else
      match String.ofList name with
      | "YAML" => readVersion (afterName.skip isBlank)
      | "TAG" => readHandleText (afterName.skip isBlank)
      | _ => none
  match found with
  | none => none
  | some (directive, after) => after.finishLine?.map fun after => (directive, after)

end Yaml

end StabilizerLayers
