/-!
# Characters of YAML

Which characters a text may hold and what they are to its structure. Carriage
returns and the next line character end a line like a line feed, and `unified?`
makes line feeds of them, so that three characters are left that end a line.
-/

namespace StabilizerLayers

namespace Yaml

/-- The mark that some editors put before a text. -/
def byteOrderMark : Char := Char.ofNat 0xFEFF

/-- Whether a text may hold a character: any but U+FFFE, U+FFFF and the control
    characters other than tabs and line ends. -/
def isPrintable (character : Char) : Bool :=
  let code := character.toNat
  code == 0x09 || code == 0x0A || code == 0x0D || code == 0x85 ||
    (decide (0x20 ≤ code) && decide (code ≤ 0x7E)) ||
    (decide (0xA0 ≤ code) && decide (code ≤ 0xFFFD)) || decide (0x10000 ≤ code)

/-- Whether a character separates words on a line. -/
def isBlank (character : Char) : Bool := character == ' ' || character == '\t'

/-- Whether a character ends a line, once line ends are unified. -/
def isBreak (character : Char) : Bool :=
  character == '\n' || character == Char.ofNat 0x2028 || character == Char.ofNat 0x2029

/-- Whether a character separates words or ends a line. -/
def isSpace (character : Char) : Bool := isBlank character || isBreak character

/-- Whether a character can be part of a name: a letter, a digit, `_` or `-`. -/
def isWord (character : Char) : Bool :=
  character.isAlphanum || character == '_' || character == '-'

/-- Whether a character is listed in a text. -/
def isOneOf (listed : String) (character : Char) : Bool := listed.toList.contains character

/-- Replaces carriage returns and next line characters by line feeds. -/
def unified : List Char → List Char
  | [] => []
  | '\r' :: '\n' :: rest => '\n' :: unified rest
  | character :: rest =>
    (if character == '\r' || character == Char.ofNat 0x85 then '\n' else character) ::
      unified rest

/-- The characters of a text with unified line ends, if it may hold them. -/
def unified? (characters : List Char) : Option (List Char) :=
  if characters.all isPrintable then some (unified characters) else none

end Yaml

end StabilizerLayers
