import StabilizerLayers.LowerCase.Tables

/-!
# Lower case

The lower case form of a text. Every character goes by itself, except a capital
sigma, whose form depends on its place: at the end of a word it is `ς`, and
elsewhere `σ`. A sigma ends a word if a letter with a case stands before it and
none after it, where characters that are passed over do not count.
-/

namespace StabilizerLayers

namespace LowerCase

/-- The capital letter whose form depends on its place. -/
def capitalSigma : Char := Char.ofNat 0x3A3

/-- The lower case form of a character by itself. A capital I with a dot keeps
    the dot as a mark of its own. -/
def character (letter : Char) : List Char :=
  let code := letter.toNat
  if code == 0x130 then ['i', Char.ofNat 0x307]
  else
    match runs.find? (·.contains code) with
    | some run => [Char.ofNat (run.target + (code - run.first))]
    | none => [letter]

/-- Whether the next character that counts has a case. -/
def meetsCased (characters : List Char) : Bool :=
  match characters.dropWhile fun letter => isListed ignorableRanges letter.toNat with
  | [] => false
  | letter :: _ => isListed casedRanges letter.toNat

/-- The lower case form of the rest of a text; `before` holds what stands before
    it, latest first. -/
def text (before : List Char) : List Char → List Char
  | [] => []
  | letter :: rest =>
    let small :=
      if letter == capitalSigma then
        if meetsCased before && !meetsCased rest then [Char.ofNat 0x3C2] else [Char.ofNat 0x3C3]
      else character letter
    small ++ text (letter :: before) rest

end LowerCase

/-- The lower case form of a text. -/
def lowerCase (text : String) : String := String.ofList (LowerCase.text [] text.toList)

end StabilizerLayers
