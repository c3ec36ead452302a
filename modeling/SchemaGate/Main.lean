import SchemaGate.Command.Run

/-!
# Command line

Reads the files that the arguments name, prints what the command prints, and ends with its code.
-/

open SchemaGate

/-- The octets of a file, if it can be read. -/
def readFile (path : String) : IO (Option Utf8.Octets) := do
  try return some (← IO.FS.readBinFile path).toList
  catch _ => return none

/-- The entry point of the command line. -/
def main (arguments : List String) : IO UInt32 := do
  let paths := ((Command.ofArguments? arguments).map Command.paths).getD []
  let contents ← paths.mapM fun path => do return (path, ← readFile path)
  let files : Files := fun path => (Entries.get? path contents).getD none
  let ending := Command.ending files arguments
  (← IO.getStdout).putStr ending.output
  (← IO.getStderr).putStr ending.complaint
  return ending.code.toUInt32
