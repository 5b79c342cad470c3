/-!
# JSON values

A number is held as the text that writes it, so no digit is lost between
reading and use. An object keeps its fields in order; when a name occurs twice,
the later field is the one that counts.
-/

namespace StabilizerLayers

/-- A JSON value. -/
inductive Json where
  | null
  | bool (value : Bool)
  | number (text : String)
  | string (text : String)
  | array (items : List Json)
  | object (fields : List (String × Json))
deriving Inhabited

namespace Json

/-- A natural number. -/
def ofNat (value : Nat) : Json := number (toString value)

/-- A value or null. -/
def ofOption {α : Type} (encode : α → Json) : Option α → Json
  | some value => encode value
  | none => null

/-- The field of an object with a name. -/
def field? (name : String) : Json → Option Json
  | object fields => fields.reverse.lookup name
  | _ => none

/-- The text of a string. -/
def string? : Json → Option String
  | string text => some text
  | _ => none

/-- The value of a truth value. -/
def bool? : Json → Option Bool
  | bool value => some value
  | _ => none

/-- The items of an array. -/
def array? : Json → Option (List Json)
  | array items => some items
  | _ => none

/-- A number without sign, point or exponent. -/
def nat? : Json → Option Nat
  | number text =>
    let digits := text.toList
    if digits.isEmpty || !digits.all Char.isDigit then none
    else some (Nat.ofDigitChars 10 digits 0)
  | _ => none

/-- Digits of a code point in an escape, at least four. -/
def escapeDigits (code : Nat) : String :=
  let digits := Nat.toDigits 16 code
  String.ofList (List.replicate (4 - digits.length) '0' ++ digits)

/-- A character inside quotes. -/
def escaped : Char → String
  | '"' => "\\\""
  | '\\' => "\\\\"
  | '\n' => "\\n"
  | '\r' => "\\r"
  | '\t' => "\\t"
  | '\x08' => "\\b"
  | '\x0c' => "\\f"
  | character =>
    if character.toNat < 0x20 then "\\u" ++ escapeDigits character.toNat else character.toString

/-- A text in quotes. -/
def quoted (text : String) : String :=
  "\"" ++ String.join (text.toList.map escaped) ++ "\""

mutual

/-- A value on one line. -/
def render : Json → String
  | null => "null"
  | bool true => "true"
  | bool false => "false"
  | number text => text
  | string text => quoted text
  | array items => "[" ++ String.intercalate "," (renderItems items) ++ "]"
  | object fields => "\x7b" ++ String.intercalate "," (renderFields fields) ++ "\x7d"

/-- Items, each on its own. -/
def renderItems : List Json → List String
  | [] => []
  | item :: rest => item.render :: renderItems rest

/-- Fields, each on its own. -/
def renderFields : List (String × Json) → List String
  | [] => []
  | (name, value) :: rest => (quoted name ++ ":" ++ value.render) :: renderFields rest

end

/-- Blanks before a line at a depth. -/
def margin (depth : Nat) : String := String.ofList (List.replicate (2 * depth) ' ')

mutual

/-- A value over several lines, each level indented by two blanks more. -/
def pretty (depth : Nat) : Json → String
  | array [] => "[]"
  | array (item :: rest) =>
    "[\n" ++ String.intercalate ",\n" (prettyItems (depth + 1) (item :: rest)) ++ "\n" ++
      margin depth ++ "]"
  | object [] => "\x7b\x7d"
  | object (field :: rest) =>
    "\x7b\n" ++ String.intercalate ",\n" (prettyFields (depth + 1) (field :: rest)) ++ "\n" ++
      margin depth ++ "\x7d"
  | value => value.render

/-- Items over several lines. -/
def prettyItems (depth : Nat) : List Json → List String
  | [] => []
  | item :: rest => (margin depth ++ item.pretty depth) :: prettyItems depth rest

/-- Fields over several lines. -/
def prettyFields (depth : Nat) : List (String × Json) → List String
  | [] => []
  | (name, value) :: rest =>
    (margin depth ++ quoted name ++ ": " ++ value.pretty depth) :: prettyFields depth rest

end

end Json

end StabilizerLayers
