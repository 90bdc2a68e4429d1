import FormCheck.CommandLine

/-!
# The program

The files that the arguments name are read, the call is carried out, and its
output is printed.
-/

namespace FormCheck

def readFile? (name : String) : IO (Option ByteArray) := do
  try
    return some (← IO.FS.readBinFile name)
  catch _ =>
    return none

def readFiles (names : List String) : IO (List (String × ByteArray)) :=
  names.filterMapM fun name => do
    return (← readFile? name).map fun bytes => (name, bytes)

end FormCheck

def main (args : List String) : IO UInt32 := do
  let files ← FormCheck.readFiles (args.take 2)
  let output := FormCheck.CommandLine.run (fun name => files.lookup name) args
  (← IO.getStderr).putStr output.stderr
  (← IO.getStdout).putStr output.stdout
  return output.exitCode.toUInt32
