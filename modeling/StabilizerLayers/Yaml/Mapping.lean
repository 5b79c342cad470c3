import StabilizerLayers.Yaml.Token

/-!
# Flat mappings of YAML

A text that holds one document with one mapping of scalars, or none. The document
may have directives and marks around it. Keys and values that are left out are
empty scalars. A node with an anchor is a scalar for all aliases of that name
after it.

An anchor takes the slot whose number is that of the names known so far. A name
that is given again moves to a new slot without making a new name known, so that
the next new name shares the slot, and then the later node stands for both.
-/

namespace StabilizerLayers

namespace Yaml

/-- A text with its style and its tag. -/
structure Scalar where
  style : Style
  text : String
  tag : Option String := none
deriving DecidableEq, Repr

/-- What stands where nothing is written. -/
def Scalar.empty : Scalar := { style := .plain, text := "" }

/-! ### Nodes -/

/-- What can stand before a node. -/
structure Properties where
  anchor : Option String := none
  tag : Option String := none

/-- Whether nothing stands before a node. -/
def Properties.isEmpty (properties : Properties) : Bool :=
  properties.anchor.isNone && properties.tag.isNone

/-- Reads an anchor and a tag in either order, both optional. -/
def readProperties (handles : Handles) : List Token → Option (Properties × List Token)
  | .anchor name :: .tag tag :: rest | .tag tag :: .anchor name :: rest =>
    (tag.text? handles).map fun text => (⟨some name, some text⟩, rest)
  | .anchor name :: rest => some (⟨some name, none⟩, rest)
  | .tag tag :: rest => (tag.text? handles).map fun text => (⟨none, some text⟩, rest)
  | rest => some ({}, rest)

/-- A key or a value. -/
inductive Node where
  | scalar (anchor : Option String) (scalar : Scalar)
  | aliasOf (name : String)
deriving DecidableEq, Repr

/-- The node that stands where nothing is written. -/
def Node.empty : Node := .scalar none .empty

/-- Reads a node. -/
def readNode (handles : Handles) : List Token → Option (Node × List Token)
  | .aliasOf name :: rest => some (.aliasOf name, rest)
  | tokens =>
    match readProperties handles tokens with
    | none => none
    | some (properties, .scalar style text :: rest) =>
      some (.scalar properties.anchor ⟨style, text, properties.tag⟩, rest)
    | some (properties, rest) =>
      if properties.isEmpty then none
      else some (.scalar properties.anchor { Scalar.empty with tag := properties.tag }, rest)

/-- Reads a node that may be left out before some tokens. -/
def readOptionalNode (handles : Handles) (before : List Token) (tokens : List Token) :
    Option (Node × List Token) :=
  if tokens.head?.any before.contains then some (.empty, tokens) else readNode handles tokens

/-! ### Mappings -/

/-- Keys with their values. -/
abbrev Entries := List (Node × Node)

/-- Reads the value of an entry, with its mark. -/
def readValue (handles : Handles) (before : List Token) : List Token → Option (Node × List Token)
  | .value :: rest => readOptionalNode handles before rest
  | rest => some (.empty, rest)

/-- Reads the entries of a mapping by indentation. Each takes at least one token,
    which bounds their number. -/
def readBlockEntries (handles : Handles) : Nat → List Token → Option (Entries × List Token)
  | bound + 1, .key :: afterMark =>
    match readOptionalNode handles [.key, .value, .blockEnd] afterMark with
    | none => none
    | some (name, afterName) =>
      match readValue handles [.key, .value, .blockEnd] afterName with
      | none => none
      | some (value, afterValue) =>
        (readBlockEntries handles bound afterValue).map fun (entries, rest) =>
          ((name, value) :: entries, rest)
  | _ + 1, .blockEnd :: rest => some ([], rest)
  | _, _ => none

/-- Reads an entry within braces. Without a mark it is a key alone. -/
def readFlowEntry (handles : Handles) : List Token → Option ((Node × Node) × List Token)
  | .key :: afterMark =>
    match readOptionalNode handles [.value, .separator, .flowEnd] afterMark with
    | none => none
    | some (name, afterName) =>
      (readValue handles [.separator, .flowEnd] afterName).map fun (value, rest) =>
        ((name, value), rest)
  | tokens => (readNode handles tokens).map fun (name, rest) => ((name, .empty), rest)

/-- Reads the entries within braces. A comma may follow the last one. -/
def readFlowEntries (handles : Handles) : Nat → List Token → Option (Entries × List Token)
  | _ + 1, .flowEnd :: rest => some ([], rest)
  | bound + 1, tokens =>
    match readFlowEntry handles tokens with
    | none => none
    | some (entry, .separator :: rest) =>
      (readFlowEntries handles bound rest).map fun (entries, rest) => (entry :: entries, rest)
    | some (entry, .flowEnd :: rest) => some ([entry], rest)
    | some _ => none
  | 0, _ => none

/-! ### Aliases -/

/-- Anchors by slot. -/
structure Anchors where
  /-- Names with their slots. -/
  names : List (String × Nat) := []
  /-- Slots with their nodes, latest first; a mapping is no scalar. -/
  nodes : List (Nat × Option Scalar) := []

/-- Adds an anchor, if there is one. -/
def Anchors.add (anchors : Anchors) (anchor : Option String) (node : Option Scalar) : Anchors :=
  match anchor with
  | none => anchors
  | some name =>
    let slot := anchors.names.length
    { names := (name, slot) :: anchors.names.filter (·.1 != name)
      nodes := (slot, node) :: anchors.nodes }

/-- A node whose alias has become a slot. -/
inductive Content where
  | scalar (scalar : Scalar)
  | slot (number : Nat)

/-- Finds the slot of an alias, or adds an anchor. -/
def Anchors.place (anchors : Anchors) : Node → Option (Content × Anchors)
  | .scalar anchor scalar => some (.scalar scalar, anchors.add anchor (some scalar))
  | .aliasOf name => (anchors.names.lookup name).map fun slot => (.slot slot, anchors)

/-- Finds the slots of all aliases. -/
def Anchors.placeAll (anchors : Anchors) :
    Entries → Option (List (Content × Content) × Anchors)
  | [] => some ([], anchors)
  | (name, value) :: rest =>
    match anchors.place name with
    | none => none
    | some (name, anchors) =>
      match anchors.place value with
      | none => none
      | some (value, anchors) =>
        (anchors.placeAll rest).map fun (placed, anchors) => ((name, value) :: placed, anchors)

/-- The scalar that a node stands for. -/
def Content.scalar? (anchors : Anchors) : Content → Option Scalar
  | .scalar found => some found
  | .slot number => (anchors.nodes.lookup number).join

/-- Keys and values as scalars; `anchor` is that of the mapping itself. -/
def resolve? (anchor : Option String) (entries : Entries) : Option (List (Scalar × Scalar)) :=
  match (Anchors.add {} anchor none).placeAll entries with
  | none => none
  | some (placed, anchors) =>
    placed.mapM fun (name, value) =>
      match name.scalar? anchors, value.scalar? anchors with
      | some name, some value => some (name, value)
      | _, _ => none

/-! ### Documents -/

/-- Reads the directives before a document: at most one version, which must be known,
    and handles that differ. -/
def readDirectives (versioned : Bool) (handles : Handles) :
    List Token → Option (Handles × List Token)
  | .directive (.version major minor) :: rest =>
    if !versioned && major == 1 && (minor == 1 || minor == 2) then
      readDirectives true handles rest
    else none
  | .directive (.handle name text) :: rest =>
    if (handles.lookup name).isSome then none
    else readDirectives versioned ((name, text) :: handles) rest
  | rest => some (handles, rest)

/-- Reads the mapping of a document. Properties without a node are one without
    entries. -/
def readContent (handles : Handles) (tokens : List Token) :
    Option (List (Scalar × Scalar) × List Token) :=
  match readProperties handles tokens with
  | none => none
  | some (properties, rest) =>
    let entries :=
      match rest with
      | .blockStart :: rest => readBlockEntries handles (rest.length + 1) rest
      | .flowStart :: rest => readFlowEntries handles (rest.length + 1) rest
      | .aliasOf _ :: _ | .scalar _ _ :: _ => none
      | rest => if properties.isEmpty then none else some ([], rest)
    match entries with
    | none => none
    | some (entries, rest) =>
      (resolve? properties.anchor entries).map fun resolved => (resolved, rest)

/-- Whether a document ends before some tokens. -/
def endsDocument : List Token → Bool
  | [] | .directive _ :: _ | .documentStart :: _ | .documentEnd :: _ => true
  | _ => false

/-- Reads the content of a document after its mark, which may be left out. -/
def readDocument (tokens : List Token) : Option (List (Scalar × Scalar) × List Token) :=
  match tokens with
  | .directive _ :: _ | .documentStart :: _ =>
    match readDirectives false [] tokens with
    | some (handles, .documentStart :: rest) =>
      if endsDocument rest then some ([], rest)
      else readContent (handles ++ Handles.standard) rest
    | _ => none
  | _ => readContent Handles.standard tokens

/-- The entries of the mapping that a text holds; none if it holds no document. -/
def readMapping? (text : String) : Option (List (Scalar × Scalar)) :=
  match tokens? text with
  | none => none
  | some [] => some []
  | some tokens =>
    match readDocument tokens with
    | none => none
    | some (entries, rest) =>
      if rest.all (· == .documentEnd) then some entries else none

end Yaml

end StabilizerLayers
