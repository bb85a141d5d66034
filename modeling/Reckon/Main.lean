import Reckon.CommandLine.Run

/-!
# The program

Reads the files that the command line names, runs it, and prints what it leaves behind.
-/

namespace Reckon

/-- The contents of the files that exist. -/
def readFiles (names : List String) : IO (List (String × List UInt8)) :=
  names.filterMapM fun (name : String) => do
    try
      let bytes ← IO.FS.readBinFile name
      return some (name, bytes.toList)
    catch _ => return none

/-- Run the command line. -/
def runCommandLine (arguments : List String) : IO UInt32 := do
  let names :=
    match CommandLine.Options.parse arguments with
    | .ok options => options.files
    | .error _ => []
  let contents ← readFiles names
  let files (name : String) : Option (List UInt8) :=
    (contents.find? fun file => file.1 == name).map Prod.snd
  let outcome := CommandLine.run files arguments
  (← IO.getStdout).putStr outcome.stdout
  (← IO.getStderr).putStr outcome.stderr
  return outcome.exit.toUInt32

end Reckon

/-- The entry point. -/
def main (arguments : List String) : IO UInt32 :=
  Reckon.runCommandLine arguments
