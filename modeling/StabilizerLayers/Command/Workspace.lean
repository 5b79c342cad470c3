import StabilizerLayers.LowerCase.Basic

/-!
# Workspaces

What a command sees of the file system. A workspace is a directory of text files,
some of them in subdirectories; a directory exists if it holds a file. A path is
followed part by part, from the workspace or, after a leading slash, from the
root of the system. Every part but the last has to lead to a directory, also if
the part after it goes back: `a/../b` needs a directory `a`.

Of what lies outside only the directories that any system has are known, and the
null device, which is always empty. A file that is written outside leaves the
workspace as it is.
-/

namespace StabilizerLayers

/-- Why a file cannot be read or written. -/
inductive FileFault where
  | missing
  | notDirectory
  | isDirectory
  | nameTooLong
  /-- Any other reason, in the words of the system. -/
  | other (reason : String)
deriving DecidableEq, Repr

/-- Wording of a fault. -/
def FileFault.message : FileFault → String
  | missing => "No such file or directory (os error 2)"
  | notDirectory => "Not a directory (os error 20)"
  | isDirectory => "Is a directory (os error 21)"
  | nameTooLong => "File name too long (os error 36)"
  | other reason => reason

/-- A directory that a path can lead to. -/
inductive Directory where
  /-- In the workspace, by the names that lead to it. -/
  | inside (place : List String)
  /-- One of those around the workspace. -/
  | above
  /-- In the system, by the names that lead to it from the root. -/
  | system (place : List String)
deriving DecidableEq, Repr

/-- The directory around a directory. The root is its own. -/
def Directory.parent : Directory → Directory
  | inside [] => above
  | inside place => inside place.dropLast
  | above => above
  | system place => system place.dropLast

/-- Text files by path. -/
structure Workspace where
  files : List (String × String)

namespace Workspace

/-- What stands at a path. -/
inductive Entry where
  | file (text : String)
  | directory (directory : Directory)

/-- The parts of a path that name something. -/
def parts (path : String) : List String :=
  (path.splitOn "/").filter fun part => part != "" && part != "."

/-- The file at a place. -/
def fileAt? (workspace : Workspace) (place : List String) : Option String :=
  (workspace.files.find? fun file => parts file.1 == place).map fun file => file.2

/-- Whether there is a directory at a place. -/
def hasDirectory (workspace : Workspace) (place : List String) : Bool :=
  place.isEmpty || workspace.files.any fun file =>
    let filePlace := parts file.1
    place.isPrefixOf filePlace && place != filePlace

/-- Directories that any system has. -/
def systemDirectories : List (List String) := [["dev"], ["etc"], ["proc"], ["tmp"], ["usr"]]

/-- The device that takes everything and gives nothing. -/
def nullDevice : List String := ["dev", "null"]

/-- The most bytes that a name has. -/
def longestName : Nat := 255

/-- The most bytes that a path has. -/
def longestPath : Nat := 4095

/-- What a directory holds under a name. -/
def lookUp (workspace : Workspace) (directory : Directory) (name : String) :
    Except FileFault Entry :=
  if longestName < name.utf8ByteSize then .error .nameTooLong
  else
    match directory with
    | .inside outer =>
      let place := outer ++ [name]
      match workspace.fileAt? place with
      | some text => .ok (.file text)
      | none =>
        if workspace.hasDirectory place then .ok (.directory (.inside place))
        else .error .missing
    | .above => .error .missing
    | .system outer =>
      let place := outer ++ [name]
      if place == nullDevice then .ok (.file "")
      else if systemDirectories.contains place then .ok (.directory (.system place))
      else .error .missing

/-- Follows the parts of a path. An empty part and `.` stay in a directory, and
    `..` goes to the one around it. -/
def follow (workspace : Workspace) : Entry → List String → Except FileFault Entry
  | entry, [] => .ok entry
  | .file _, _ :: _ => .error .notDirectory
  | .directory directory, part :: rest =>
    if part == "" || part == "." then workspace.follow (.directory directory) rest
    else if part == ".." then workspace.follow (.directory directory.parent) rest
    else
      match workspace.lookUp directory part with
      | .ok entry => workspace.follow entry rest
      | .error fault => .error fault

/-- Where a path starts. -/
def start (path : String) : Entry :=
  .directory (if path.startsWith "/" then .system [] else .inside [])

/-- What stands at a path. -/
def entry (workspace : Workspace) (path : String) : Except FileFault Entry :=
  if path.isEmpty then .error .missing
  else if longestPath < path.utf8ByteSize then .error .nameTooLong
  else workspace.follow (start path) (path.splitOn "/")

/-- The text of a file. -/
def read (workspace : Workspace) (path : String) : Except FileFault String :=
  match workspace.entry path with
  | .ok (.file text) => .ok text
  | .ok (.directory _) => .error .isDirectory
  | .error fault => .error fault

/-- The files after a text was written to a place. -/
def replace (place : List String) (text : String) :
    List (String × String) → List (String × String)
  | [] => [(String.intercalate "/" place, text)]
  | (name, old) :: rest =>
    if parts name == place then (name, text) :: rest else (name, old) :: replace place text rest

/-- Writes a file of a directory. -/
def writeIn (workspace : Workspace) (directory : Directory) (name text : String) :
    Except FileFault Workspace :=
  match workspace.lookUp directory name with
  | .ok (.directory _) => .error .isDirectory
  | .ok (.file _) | .error .missing =>
    match directory with
    | .inside place => .ok ⟨replace (place ++ [name]) text workspace.files⟩
    | .above | .system _ => .ok workspace
  | .error fault => .error fault

/-- Writes a file into a directory that exists. A slash at the end asks for a
    directory. -/
def write (workspace : Workspace) (path text : String) : Except FileFault Workspace :=
  if path.isEmpty then .error .missing
  else if longestPath < path.utf8ByteSize then .error .nameTooLong
  else
    match (path.splitOn "/").reverse.dropWhile (·.isEmpty) with
    | [] => .error .isDirectory
    | name :: outer =>
      match workspace.follow (start path) outer.reverse with
      | .error fault => .error fault
      | .ok (.file _) => .error .notDirectory
      | .ok (.directory directory) =>
        if name == "." || name == ".." || path.endsWith "/" then .error .isDirectory
        else workspace.writeIn directory name text

end Workspace

/-- The extension of the last part of a path, in lower case. A name that only
    starts with a dot has none. -/
def pathExtension (path : String) : String :=
  match (Workspace.parts path).getLast? with
  | none | some ".." => ""
  | some name =>
    match name.toList.reverse.span (· != '.') with
    | (_, []) | (_, ['.']) => ""
    | (extension, _) => lowerCase (String.ofList extension.reverse)

end StabilizerLayers
