import BL.CommandLine.Run

/-!
# The command

Reads the input that the arguments name, prints, and writes the output file.
-/

namespace BL.CommandLine

/-- What is found at a path. -/
def findFile (path : String) : IO (Found IO.Error) := do
  try return .text (← IO.FS.readFile path)
  catch
    | .noFileOrDirectory .. => return .nothing
    | e => return .unreadable e

/-- Prints, and writes the file if there is one to write. -/
def perform (e : Effects IO.Error) : IO UInt32 := do
  IO.print e.stdout
  IO.eprint e.stderr
  match e.status, e.writing with
  | .exited code, none => return code.toUInt32
  | .exited code, some writing =>
    IO.FS.writeFile writing.path writing.text
    IO.print writing.message
    return code.toUInt32
  | .unreadable error _, _ | .unwritable error _, _ => throw error
  | .faulted _, _ => return 1

end BL.CommandLine

open BL.CommandLine in
def main (arguments : List String) : IO UInt32 := do
  match Request.ofArguments .second arguments with
  | .ok r => perform (r.effects (← findFile r.input))
  | .error e => perform e.effects
