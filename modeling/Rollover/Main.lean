import Rollover.CommandLine.Run

/-!
# The program

The outermost layer: it reads the file that the arguments name, runs the command, and prints what
comes of it.
-/

namespace Rollover

/-- What is found at a path. -/
def readContent (path : String) : IO FileContent := do
  try
    return .bytes (← IO.FS.readBinFile path)
  catch
    | .noFileOrDirectory .. => return .missing
    | _ => return .unreadable

/-- Runs the program.  What a command complains of is told in the words of its message, and not in
the notation in which a debugger would show it. -/
def runMain (arguments : List String) : IO UInt32 := do
  let content ← match (CommandLine.Invocation.ofArguments? arguments).bind (·.path?) with
    | some path => readContent path
    | none => pure .missing
  let result := CommandLine.run arguments fun _ => content
  IO.print result.output
  if let some complaint := result.complaint then
    IO.eprintln ("Error: " ++ complaint)
  return result.exitCode.toUInt32

end Rollover

/-- Runs the program on the arguments of the process. -/
def main (arguments : List String) : IO UInt32 :=
  Rollover.runMain arguments
