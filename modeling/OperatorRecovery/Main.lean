import OperatorRecovery.CommandLine

/-!
The program: reads the files that the arguments name and prints the answer.
-/

open OperatorRecovery

/-- The contents of a file, or none if it cannot be read. -/
def readFile? (file : String) : IO (Option ByteArray) := do
  try
    return some (← IO.FS.readBinFile file)
  catch _ =>
    return none

def main (arguments : List String) : IO UInt32 := do
  let names := (Invocation.parse? arguments).elim [] CommandLine.filesOf
  let contents ← names.mapM fun name => return (name, ← readFile? name)
  match CommandLine.answer (fun name => (contents.lookup name).join) arguments with
  | .ok text =>
    IO.print text
    return 0
  | .error error =>
    IO.eprintln error.message
    return error.exitCode
