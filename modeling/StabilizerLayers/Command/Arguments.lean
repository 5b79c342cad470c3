/-!
# Command-line arguments

A command is a name followed by flags. A flag is a word `--name`, with its value
in the next word or after `=`, or a letter in a word that starts with a single
dash; letters of flags without a value can share a word, and the last of them
may take the rest of the word, or the next word, as its value. The value in a
next word does not start with a dash, unless it is a dash.

A flag is given once, except the one for more messages. The request for help or
for the version is answered as soon as it is read, so what follows it is not
looked at. After a word `--` no flag is read, and no command takes other words.
-/

namespace StabilizerLayers

/-- What a command is told by a flag. -/
inductive Flag where
  | input
  | output
  | fragment
  | config
  | format
  | verbose
  | help
  | version
deriving DecidableEq, Repr

namespace Flag

/-- The name after two dashes. -/
def name : Flag → String
  | input => "input"
  | output => "output"
  | fragment => "partial"
  | config => "config"
  | format => "format"
  | verbose => "verbose"
  | help => "help"
  | version => "version"

/-- The letter after one dash. -/
def letter? : Flag → Option Char
  | input => some 'i'
  | output => some 'o'
  | format => some 'f'
  | verbose => some 'v'
  | help => some 'h'
  | version => some 'V'
  | fragment | config => none

/-- Whether a value follows. -/
def takesValue : Flag → Bool
  | input | output | config | format => true
  | fragment | verbose | help | version => false

end Flag

/-- What a command does. -/
inductive Command where
  | canonicalize (input : String) (output : Option String) (fragment : Bool)
      (config : Option String)
  | flip (input : String) (output : Option String)
  | stats (input format : String)
  | about
deriving DecidableEq, Repr

/-- What is asked for. -/
inductive Invocation where
  | run (command : Command)
  | help
  | version
  /-- The arguments make no sense. -/
  | misuse
deriving DecidableEq, Repr

namespace Invocation

/-- What a word says about flags, piece by piece. -/
inductive Piece where
  /-- A flag with its value; the value is empty if it takes none. -/
  | given (flag : Flag) (value : String)
  /-- A flag whose value is the next word. -/
  | awaiting (flag : Flag)
  /-- No flag. -/
  | unknown
deriving DecidableEq, Repr

/-- A flag written with its name, after the two dashes. -/
def namedPiece (allowed : List Flag) (body : List Char) : Piece :=
  let name := String.ofList (body.takeWhile (· != '='))
  let value := (body.dropWhile (· != '=')).tail?
  match allowed.find? fun flag => flag.name == name with
  | none => .unknown
  | some flag =>
    match flag.takesValue, value with
    | true, some value => .given flag (String.ofList value)
    | true, none => .awaiting flag
    | false, none => .given flag ""
    | false, some _ => .unknown

/-- Flags written with their letters, after the dash. -/
def letterPieces (allowed : List Flag) : List Char → List Piece
  | [] => []
  | letter :: rest =>
    match allowed.find? fun flag => flag.letter? == some letter with
    | none => [.unknown]
    | some flag =>
      if flag.takesValue then
        match rest with
        | [] => [.awaiting flag]
        | '=' :: value | value => [.given flag (String.ofList value)]
      else .given flag "" :: letterPieces allowed rest

/-- What a word says. -/
def pieces (allowed : List Flag) (word : String) : List Piece :=
  match word.toList with
  | '-' :: '-' :: body => [namedPiece allowed body]
  | '-' :: letter :: rest => letterPieces allowed (letter :: rest)
  | _ => [.unknown]

/-- Whether a word is read as flags. -/
def isFlagWord (word : String) : Bool := word.startsWith "-" && word != "-"

/-- Flags and values that were given, the latest first. -/
abbrev Given := List (Flag × String)

/-- How reading stands after some pieces. -/
inductive Progress where
  | going (given : Given)
  | awaiting (given : Given) (flag : Flag)
  | stopped (answer : Invocation)

/-- Takes note of a flag. -/
def give (given : Given) (flag : Flag) (value : String) : Progress :=
  match flag with
  | .help => .stopped .help
  | .version => .stopped .version
  | .verbose => .going given
  | flag =>
    if (given.lookup flag).isSome then .stopped .misuse else .going ((flag, value) :: given)

/-- Takes note of pieces in order. -/
def giveAll (given : Given) : List Piece → Progress
  | [] => .going given
  | .unknown :: _ => .stopped .misuse
  | .awaiting flag :: _ => .awaiting given flag
  | .given flag value :: rest =>
    match give given flag value with
    | .going given => giveAll given rest
    | progress => progress

/-- Reads all words and finishes with what was given. -/
def readFlags (allowed : List Flag) (finish : Given → Invocation) (given : Given) :
    List String → Invocation
  | [] => finish given
  | "--" :: rest => if rest.isEmpty then finish given else .misuse
  | word :: rest =>
    match giveAll given (pieces allowed word) with
    | .stopped answer => answer
    | .going given => readFlags allowed finish given rest
    | .awaiting given flag =>
      match rest with
      | [] => .misuse
      | value :: rest =>
        if isFlagWord value then .misuse
        else
          match give given flag value with
          | .going given => readFlags allowed finish given rest
          | _ => .misuse

/-- A command that needs an input. -/
def withInput (build : String → Given → Command) (given : Given) : Invocation :=
  match given.lookup .input with
  | some input => .run (build input given)
  | none => .misuse

/-- Reads the flags of a command, if there is a command of this name. -/
def ofCommand? (name : String) (words : List String) : Option Invocation :=
  match name with
  | "canonicalize" =>
    some (readFlags [.input, .output, .fragment, .config, .verbose, .help]
      (withInput fun input given =>
        .canonicalize input (given.lookup .output) (given.lookup .fragment).isSome
          (given.lookup .config)) [] words)
  | "flip" =>
    some (readFlags [.input, .output, .verbose, .help]
      (withInput fun input given => .flip input (given.lookup .output)) [] words)
  | "stats" =>
    some (readFlags [.input, .format, .verbose, .help]
      (withInput fun input given => .stats input ((given.lookup .format).getD "table")) [] words)
  | "version" => some (readFlags [.verbose, .help] (fun _ => .run .about) [] words)
  | "help" =>
    some (match words with
      | [] => .help
      | [name] =>
        if ["canonicalize", "flip", "stats", "version", "help"].contains name then .help
        else .misuse
      | _ => .misuse)
  | _ => none

/-- Reads the arguments of the program. -/
def read : List String → Invocation
  | [] => .misuse
  | word :: rest =>
    match ofCommand? word rest with
    | some invocation => invocation
    | none =>
      if word == "--" then .misuse
      else
        match giveAll [] (pieces [.verbose, .help, .version] word) with
        | .stopped answer => answer
        | .going _ => read rest
        | .awaiting _ _ => .misuse

end Invocation

end StabilizerLayers
