import TrendLadder.CommandLine

/-!
# Program

Reads the files that the command line names, runs the command and prints what it gives.
-/

open TrendLadder

/-- The content of a file, if it can be read. -/
def readIfThere (name : String) : IO (Option String) :=
  try
    return some (← IO.FS.readFile name)
  catch _ =>
    return none

/-- The program. -/
def main (args : List String) : IO UInt32 := do
  let names := (Invocation.ofArgs? args).elim [] Invocation.fileNames
  let contents ← names.mapM fun name => return (name, ← readIfThere name)
  let outcome := runCommand (fun name => (contents.lookup name).join) args
  IO.print outcome.output
  IO.eprint outcome.errors
  return outcome.exitCode.toUInt32
