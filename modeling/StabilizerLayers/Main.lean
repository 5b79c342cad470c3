import StabilizerLayers.Command.Plan

/-!
# The program

Reads the files that the arguments name, asks the library what to do, and does
it. All decisions are in `Invocation.plan`.
-/

namespace StabilizerLayers

namespace Program

/-- The fault behind a failed operation on a file. Codes of the system come with
    either sign. -/
def fileFault : IO.Error → FileFault
  | .noFileOrDirectory .. => .missing
  | .inappropriateType _ code details =>
    if code == 20 || code == 0 - 20 then .notDirectory
    else if code == 21 || code == 0 - 21 then .isDirectory
    else .other details
  | .invalidArgument _ code details =>
    if code == 36 || code == 0 - 36 then .nameTooLong else .other details
  | fault => .other (toString fault)

/-- The text of a file. -/
def readFile (path : String) : IO (Except FileFault String) := do
  try
    return .ok (← IO.FS.readFile path)
  catch fault => return .error (fileFault fault)

/-- Writes a file. -/
def writeFile (path text : String) : IO (Except FileFault Unit) := do
  try
    IO.FS.writeFile path text
    return .ok ()
  catch fault => return .error (fileFault fault)

/-- Shows a report. -/
def present (report : Report) : IO UInt32 := do
  IO.print report.output
  IO.eprint report.messages
  return report.status

/-- Carries a plan out. -/
def carryOut : Plan → IO UInt32
  | .finish report => present report
  | .save path text message => do
    match ← writeFile path text with
    | .ok () => present { messages := message }
    | .error fault => present (CommandError.outputUnwritable path fault).report

end Program

end StabilizerLayers

open StabilizerLayers in
/-- Runs the program on its arguments. -/
def main (words : List String) : IO UInt32 := do
  let invocation := Invocation.read words
  let contents ← invocation.inputs.mapM fun path => do return (path, ← Program.readFile path)
  Program.carryOut (invocation.plan fun path => (contents.lookup path).getD (.error .missing))
